import IndexPools.SlotTable
import Mathlib.Data.Nat.ModEq
import Mathlib.Tactic.SplitIfs

/-!
# Search chains

A sound table holds no key twice, and reaches each key that it holds from the key's home slot over
slots that were all used before (`SlotTable.Sound`). A search then finds a held key where it is
(`probe_of_held`), and for any other key ends at the first vacant slot, counted from the key's home
(`probe_of_absent`). A key that is put into that slot leaves the table sound, also when the slot was
released and the search went on to another one (`Sound.put`), and so does the release of a slot in
the middle of other keys' chains (`Sound.vacate`).
-/

namespace IndexPools

namespace SlotTable

section Around

variable {p : Nat → Bool}

/-- The first of `left` places with `p`, from `start` on around `n` places. -/
def firstAround (p : Nat → Bool) (n left start : Nat) : Option Nat :=
  ((List.range left).map fun d => (start + d) % n).find? p

theorem step_mod (i d n : Nat) : ((i + 1) % n + d) % n = (i + (d + 1)) % n := by
  rw [Nat.mod_add_mod, Nat.add_assoc, Nat.add_comm 1 d]

/-- Less than one round leads to different places. -/
theorem around_inj {s d d' n : Nat} (hd : d < n) (hd' : d' < n)
    (h : (s + d) % n = (s + d') % n) : d = d' := by
  have hmod : d % n = d' % n := Nat.ModEq.add_left_cancel' s h
  rwa [Nat.mod_eq_of_lt hd, Nat.mod_eq_of_lt hd'] at hmod

/-- One round leads to every place. -/
theorem exists_around (s : Nat) {i n : Nat} (hi : i < n) : ∃ d < n, (s + d) % n = i := by
  have hpos : 0 < n := Nat.zero_lt_of_lt hi
  have hs : s % n < n := Nat.mod_lt s hpos
  rcases Nat.le_total (s % n) i with hle | hle
  · refine ⟨i - s % n, by omega, ?_⟩
    rw [← Nat.mod_add_mod, Nat.add_sub_cancel' hle, Nat.mod_eq_of_lt hi]
  · refine ⟨(i + n - s % n) % n, Nat.mod_lt _ hpos, ?_⟩
    rw [Nat.add_mod_mod, ← Nat.mod_add_mod, Nat.add_sub_cancel' (by omega), Nat.add_mod_right,
      Nat.mod_eq_of_lt hi]

theorem firstAround_succ {n start : Nat} (hs : start < n) (left : Nat) :
    firstAround p n (left + 1) start =
      if p start then some start else firstAround p n left ((start + 1) % n) := by
  have hrest : ((List.range left).map Nat.succ).map (fun d => (start + d) % n)
      = (List.range left).map fun d => ((start + 1) % n + d) % n := by
    rw [List.map_map]
    exact List.map_congr_left fun d _ => (step_mod start d _).symm
  unfold firstAround
  rw [List.range_succ_eq_map, List.map_cons, List.find?_cons, hrest, Nat.add_zero,
    Nat.mod_eq_of_lt hs]
  cases p start <;> rfl

theorem firstAround_eq_some {n left start i : Nat} (h : firstAround p n left start = some i) :
    ∃ d < left, i = (start + d) % n ∧ p i ∧ ∀ d' < d, p ((start + d') % n) = false := by
  unfold firstAround at h
  rw [List.find?_map, Option.map_eq_some_iff] at h
  obtain ⟨d, hd, rfl⟩ := h
  rw [List.find?_range_eq_some] at hd
  obtain ⟨hp, hlt, hbefore⟩ := hd
  exact ⟨d, List.mem_range.1 hlt, rfl, hp, fun d' hd' => by simpa using hbefore d' hd'⟩

/-- A whole round finds nothing just if there is nothing anywhere. -/
theorem firstAround_eq_none {n start : Nat} :
    firstAround p n n start = none ↔ ∀ i < n, p i = false := by
  unfold firstAround
  rw [List.find?_eq_none]
  constructor
  · intro h i hi
    obtain ⟨d, hd, rfl⟩ := exists_around start hi
    simpa using h _ (List.mem_map.2 ⟨d, List.mem_range.2 hd, rfl⟩)
  · intro h i hi
    obtain ⟨d, hd, rfl⟩ := List.mem_map.1 hi
    simpa using h _ (Nat.mod_lt _ (Nat.zero_lt_of_lt (List.mem_range.1 hd)))

end Around

/-- What slot `i` holds. -/
def holder? (t : SlotTable) (i : Nat) : Option Allocation := t.slots[i]?.bind Slot.allocation?

section Walk

variable {slots : Array Slot} {key : String}

/-- A search meets the key it looks for before any slot that was never used. -/
theorem walk_of_held : ∀ (left i : Nat) (reusable : Option Nat) {d : Nat} {a : Allocation},
    i < slots.size → d < left → slots[(i + d) % slots.size]? = some (.held a) → a.key = key →
    (∀ d' < d, slots[(i + d') % slots.size]? ≠ some .unused) →
    (∀ d' < d, ∀ b, slots[(i + d') % slots.size]? = some (.held b) → b.key ≠ key) →
    walk slots key left i reusable = .found ((i + d) % slots.size) a
  | 0, _, _, _, _, _, hd, _, _, _, _ => absurd hd (Nat.not_lt_zero _)
  | left + 1, i, reusable, 0, a, hi, _, ha, hk, _, _ => by
    have h0 : (i + 0) % slots.size = i := Nat.mod_eq_of_lt hi
    rw [h0] at ha ⊢
    simp [walk, ha, hk]
  | left + 1, i, reusable, d + 1, a, hi, hd, ha, hk, hused, hother => by
    have hpos : 0 < slots.size := by omega
    have hu := hused 0 (by omega)
    have ho := hother 0 (by omega)
    rw [Nat.add_zero, Nat.mod_eq_of_lt hi] at hu ho
    have ih : ∀ r, walk slots key left ((i + 1) % slots.size) r
        = .found ((i + (d + 1)) % slots.size) a := by
      intro r
      rw [← step_mod i d]
      refine walk_of_held left _ r (d := d) (Nat.mod_lt _ hpos) (by omega) ?_ hk ?_ ?_
      · rw [step_mod]
        exact ha
      · intro d' hd'
        rw [step_mod]
        exact hused _ (by omega)
      · intro d' hd'
        rw [step_mod]
        exact hother _ (by omega)
    rw [walk]
    rcases hs : slots[i]? with _ | s
    · rw [Array.getElem?_eq_getElem hi] at hs
      simp at hs
    · rcases s with _ | _ | b
      · exact absurd hs hu
      · exact ih _
      · simp only [if_neg (ho b hs)]
        exact ih _

/-- A search for a key that no slot holds ends at the first vacant slot it passed, be that slot
released or never used. -/
theorem walk_of_absent (hkey : ∀ (i : Nat) (a : Allocation),
    slots[i]? = some (.held a) → a.key ≠ key) :
    ∀ (left i : Nat) (reusable : Option Nat), i < slots.size →
      walk slots key left i reusable =
        match reusable.or (firstAround (fun j => (slots[j]?.bind Slot.allocation?).isNone)
          slots.size left i) with
        | some j => .vacant j
        | none => .full
  | 0, i, reusable, _ => by
    rcases reusable with _ | j <;> simp [walk, firstAround]
  | left + 1, i, reusable, hi => by
    have hpos : 0 < slots.size := by omega
    have ih := fun r => walk_of_absent hkey left ((i + 1) % slots.size) r (Nat.mod_lt _ hpos)
    rw [firstAround_succ hi, walk]
    rcases hs : slots[i]? with _ | s
    · rw [Array.getElem?_eq_getElem hi] at hs
      simp at hs
    · rcases s with _ | _ | b
      · rcases reusable with _ | j <;> simp [Slot.allocation?]
      · simp only [ih]
        rcases reusable with _ | j <;> simp [Slot.allocation?]
      · simp only [if_neg (hkey i b hs), ih]
        simp [Slot.allocation?]

end Walk

theorem holder?_eq_some {t : SlotTable} {i : Nat} {a : Allocation} :
    t.holder? i = some a ↔ t.slots[i]? = some (.held a) := by
  unfold holder?
  rcases t.slots[i]? with _ | s
  · simp
  · cases s <;> simp [Slot.allocation?]

theorem lt_capacity_of_holder {t : SlotTable} {i : Nat} {a : Allocation}
    (h : t.holder? i = some a) : i < t.capacity := by
  rw [holder?_eq_some] at h
  exact (Array.getElem?_eq_some_iff.1 h).1

theorem entriesBelow_eq (slots : Array Slot) : ∀ (n : Nat) (tail : List (Nat × Allocation)),
    entriesBelow slots n tail =
      ((List.range n).filterMap fun i => (slots[i]?.bind Slot.allocation?).map fun a => (i, a))
        ++ tail
  | 0, _ => rfl
  | n + 1, tail => by
    rw [List.range_succ, List.filterMap_append, entriesBelow]
    rcases hs : slots[n]? with _ | s
    · simp [entriesBelow_eq slots n, hs]
    · cases s <;> simp [entriesBelow_eq slots n, hs, Slot.allocation?]

theorem entries_eq (t : SlotTable) :
    t.entries = (List.range t.capacity).filterMap fun i => (t.holder? i).map fun a => (i, a) := by
  unfold entries
  rw [entriesBelow_eq, List.append_nil]
  rfl

theorem mem_entries {t : SlotTable} {i : Nat} {a : Allocation} :
    (i, a) ∈ t.entries ↔ t.holder? i = some a := by
  rw [entries_eq, List.mem_filterMap]
  constructor
  · rintro ⟨j, -, hj⟩
    obtain ⟨b, hb, he⟩ := Option.map_eq_some_iff.1 hj
    cases he
    exact hb
  · intro h
    exact ⟨i, List.mem_range.2 (lt_capacity_of_holder h), by rw [h]; rfl⟩

theorem entries_sorted (t : SlotTable) : t.entries.Pairwise fun x y => x.1 < y.1 := by
  rw [entries_eq]
  refine List.pairwise_lt_range.filterMap _ fun i j hij x hx y hy => ?_
  obtain ⟨a, -, rfl⟩ := Option.map_eq_some_iff.1 hx
  obtain ⟨b, -, rfl⟩ := Option.map_eq_some_iff.1 hy
  exact hij

/-- No slot holds the key. -/
def Absent (t : SlotTable) (key : String) : Prop := ∀ i a, t.holder? i = some a → a.key ≠ key

theorem absent_iff_entries {t : SlotTable} {key : String} :
    t.Absent key ↔ ∀ e ∈ t.entries, e.2.key ≠ key := by
  unfold Absent
  simp only [← mem_entries, Prod.forall]

theorem held_or_absent (t : SlotTable) (key : String) :
    (∃ i a, t.holder? i = some a ∧ a.key = key) ∨ t.Absent key := by
  by_cases h : ∃ i a, t.holder? i = some a ∧ a.key = key
  · exact .inl h
  · exact .inr fun i a hi hk => h ⟨i, a, hi, hk⟩

/-- The first slot that holds nothing, from `start` on around the table. -/
def vacancy (t : SlotTable) (start : Nat) : Option Nat :=
  firstAround (fun i => (t.holder? i).isNone) t.capacity t.capacity start

/-- The table after slot `i` was given to a new key. -/
def put (t : SlotTable) (i : Nat) (a : Allocation) : SlotTable :=
  { t with slots := t.slots.setIfInBounds i (.held a), allocated := t.allocated + 1 }

/-- The table after slot `i` was released; the last release clears every slot. -/
def vacate (t : SlotTable) (i : Nat) : SlotTable :=
  { t with
    slots :=
      if t.allocated - 1 = 0 then Array.replicate t.capacity .unused
      else t.slots.setIfInBounds i .released
    allocated := t.allocated - 1 }

@[simp] theorem capacity_put (t : SlotTable) (i : Nat) (a : Allocation) :
    (t.put i a).capacity = t.capacity := by
  simp [put, capacity]

@[simp] theorem capacity_vacate (t : SlotTable) (i : Nat) : (t.vacate i).capacity = t.capacity := by
  simp only [vacate, capacity]
  split <;> simp

theorem slot_put {t : SlotTable} {i : Nat} (hi : i < t.capacity) (a : Allocation) (j : Nat) :
    (t.put i a).slots[j]? = if j = i then some (.held a) else t.slots[j]? := by
  unfold put
  rw [Array.getElem?_setIfInBounds]
  by_cases h : i = j
  · subst h
    rw [if_pos rfl, if_pos (show i < t.slots.size from hi), if_pos rfl]
  · rw [if_neg h, if_neg fun e => h e.symm]

theorem holder?_put {t : SlotTable} {i : Nat} (hi : i < t.capacity) (a : Allocation) (j : Nat) :
    (t.put i a).holder? j = if j = i then some a else t.holder? j := by
  unfold holder?
  rw [slot_put hi]
  split_ifs <;> rfl

section Hash

variable (hash : String → UInt64)

@[simp] theorem home_put (t : SlotTable) (i : Nat) (a : Allocation) (key : String) :
    (t.put i a).home hash key = t.home hash key := by
  unfold home
  rw [capacity_put]
  rfl

@[simp] theorem home_vacate (t : SlotTable) (i : Nat) (key : String) :
    (t.vacate i).home hash key = t.home hash key := by
  unfold home
  rw [capacity_vacate]
  rfl

theorem home_lt {t : SlotTable} (h : 0 < t.capacity) (key : String) :
    t.home hash key < t.capacity := by
  unfold home
  split
  · exact Nat.mod_lt _ h
  · exact h

@[simp] theorem capacity_insert (t : SlotTable) (key owner : String) (tags : Option Tags) :
    (t.insert hash key owner tags).2.capacity = t.capacity := by
  unfold insert capacity
  rcases t.probe hash key with ⟨i, a⟩ | i | _
  · simp only []
    split_ifs <;> rfl
  · exact Array.size_setIfInBounds
  · rfl

@[simp] theorem capacity_delete (t : SlotTable) (key : String) :
    (t.delete hash key).2.capacity = t.capacity := by
  unfold delete capacity
  rcases t.probe hash key with ⟨i, a⟩ | i | _
  · simp only []
    split_ifs
    · exact Array.size_replicate
    · exact Array.size_setIfInBounds
  · rfl
  · rfl

/-- What every table that came from a new one by insertions and deletions satisfies. -/
structure Sound (t : SlotTable) : Prop where
  pos : 0 < t.capacity
  bounded : t.capacity ≤ maxCapacity
  count : t.allocated = t.slots.countP fun s => s.allocation?.isSome
  distinct : ∀ {i j : Nat} {a b : Allocation}, t.holder? i = some a → t.holder? j = some b →
    a.key = b.key → i = j
  reached : ∀ {i : Nat} {a : Allocation}, t.holder? i = some a →
    ∃ d < t.capacity, i = (t.home hash a.key + d) % t.capacity ∧
      ∀ d' < d, t.slots[(t.home hash a.key + d') % t.capacity]? ≠ some .unused
  emptied : t.allocated = 0 → ∀ i < t.capacity, t.slots[i]? = some .unused

variable {hash}

theorem create_eq_ok {c : Nat} {strategy : Strategy} {t : SlotTable} :
    create c strategy = .ok t ↔
      1 ≤ c ∧ c ≤ maxCapacity ∧ t = ⟨Array.replicate c .unused, 0, strategy⟩ := by
  unfold create
  split_ifs with h0 hmax
  · exact iff_of_false nofun fun ⟨hpos, _⟩ => absurd h0 (Nat.ne_of_gt hpos)
  · exact iff_of_false nofun fun ⟨_, hle, _⟩ => absurd hmax (Nat.not_lt.2 hle)
  · simp only [Except.ok.injEq, Nat.one_le_iff_ne_zero, eq_comm, h0, ne_eq, not_false_eq_true,
      Nat.not_lt.1 hmax, true_and]

theorem capacity_of_create {c : Nat} {strategy : Strategy} {t : SlotTable}
    (h : create c strategy = .ok t) : t.capacity = c := by
  obtain ⟨-, -, rfl⟩ := create_eq_ok.1 h
  exact Array.size_replicate

theorem sound_of_create {c : Nat} {strategy : Strategy} {t : SlotTable}
    (h : create c strategy = .ok t) : t.Sound hash ∧ ∀ i, t.holder? i = none := by
  unfold create at h
  split_ifs at h with h0 hmax
  simp only [Except.ok.injEq] at h
  subst h
  have hnone : ∀ i, (⟨Array.replicate c .unused, 0, strategy⟩ : SlotTable).holder? i = none := by
    intro i
    simp only [holder?, Array.getElem?_replicate]
    split <;> rfl
  have hcap : (⟨Array.replicate c .unused, 0, strategy⟩ : SlotTable).capacity = c := by
    simp [capacity]
  refine ⟨⟨?_, ?_, ?_, ?_, ?_, ?_⟩, hnone⟩
  · omega
  · omega
  · simp [Array.countP_replicate, Slot.allocation?]
  · intro i j a b hi
    simp [hnone] at hi
  · intro i a hi
    simp [hnone] at hi
  · intro _ i hi
    rw [hcap] at hi
    simp [hi]

variable {t : SlotTable}

theorem probe_of_held (h : t.Sound hash) {i : Nat} {a : Allocation} (hi : t.holder? i = some a) :
    t.probe hash a.key = .found i a := by
  obtain ⟨d, hd, rfl, hused⟩ := h.reached hi
  refine walk_of_held _ _ none (home_lt hash h.pos _) hd (holder?_eq_some.1 hi) rfl hused ?_
  intro d' hd' b hb hk
  have hsame := h.distinct (holder?_eq_some.2 hb) hi hk
  have := around_inj (by omega) hd hsame
  omega

theorem probe_of_absent (hpos : 0 < t.capacity) {key : String} (hk : t.Absent key) :
    t.probe hash key =
      match t.vacancy (t.home hash key) with
      | some i => .vacant i
      | none => .full :=
  walk_of_absent (fun i a hi => hk i a (holder?_eq_some.2 hi)) _ _ none (home_lt hash hpos _)

theorem insert_of_held (h : t.Sound hash) {i : Nat} {a : Allocation} (hi : t.holder? i = some a)
    (owner : String) (tags : Option Tags) :
    t.insert hash a.key owner tags =
      (.ok ⟨i, if a.owner = owner ∧ a.tags = tags then .existing else .conflict a.owner a.tags⟩,
        t) := by
  unfold insert
  rw [probe_of_held h hi]
  split_ifs <;> simp_all

theorem insert_of_absent (hpos : 0 < t.capacity) {key : String} (hk : t.Absent key)
    (owner : String) (tags : Option Tags) :
    t.insert hash key owner tags =
      match t.vacancy (t.home hash key) with
      | some i => (.ok ⟨i, .inserted⟩, t.put i ⟨key, owner, tags⟩)
      | none => (.error (.exhausted t.capacity), t) := by
  unfold insert
  rw [probe_of_absent hpos hk]
  rcases t.vacancy (t.home hash key) with _ | i <;> rfl

theorem delete_of_held (h : t.Sound hash) {i : Nat} {a : Allocation} (hi : t.holder? i = some a) :
    t.delete hash a.key = (some a, t.vacate i) := by
  unfold delete
  rw [probe_of_held h hi]
  rfl

theorem delete_of_absent (hpos : 0 < t.capacity) {key : String} (hk : t.Absent key) :
    t.delete hash key = (none, t) := by
  unfold delete
  rw [probe_of_absent hpos hk]
  rcases t.vacancy (t.home hash key) with _ | i <;> rfl

theorem get?_of_held (h : t.Sound hash) {i : Nat} {a : Allocation} (hi : t.holder? i = some a) :
    t.get? hash a.key = some (i, a) := by
  unfold get?
  rw [probe_of_held h hi]

theorem get?_of_absent (hpos : 0 < t.capacity) {key : String} (hk : t.Absent key) :
    t.get? hash key = none := by
  unfold get?
  rw [probe_of_absent hpos hk]
  rcases t.vacancy (t.home hash key) with _ | i <;> rfl

theorem vacancy_eq_some {start i : Nat} (h : t.vacancy start = some i) :
    ∃ d < t.capacity, i = (start + d) % t.capacity ∧ t.holder? i = none ∧
      ∀ d' < d, (t.holder? ((start + d') % t.capacity)).isSome := by
  obtain ⟨d, hd, hi, hnone, hbefore⟩ := firstAround_eq_some h
  exact ⟨d, hd, hi, Option.isNone_iff_eq_none.1 hnone, fun d' hd' => by simpa using hbefore d' hd'⟩

theorem lt_of_vacancy {start i : Nat} (h : t.vacancy start = some i) :
    i < t.capacity ∧ t.holder? i = none := by
  obtain ⟨d, hd, hi, hnone, -⟩ := vacancy_eq_some h
  exact ⟨hi ▸ Nat.mod_lt _ (Nat.lt_of_le_of_lt (Nat.zero_le d) hd), hnone⟩

/-- No slot is vacant just if every slot is held, wherever the search begins. -/
theorem vacancy_eq_none {start : Nat} :
    t.vacancy start = none ↔ ∀ i < t.capacity, ∃ a, t.holder? i = some a := by
  rw [vacancy, firstAround_eq_none]
  refine forall₂_congr fun i _ => ?_
  rcases t.holder? i with _ | a <;> simp

/-- A table that is not full has a vacant slot, wherever the search for it begins. -/
theorem Sound.exists_vacancy (h : t.Sound hash) (hroom : t.allocated < t.capacity) (start : Nat) :
    ∃ i, t.vacancy start = some i := by
  rcases hv : t.vacancy start with _ | i
  · have hheld : ∀ s ∈ t.slots, s.allocation?.isSome := by
      intro s hs
      obtain ⟨i, hi, rfl⟩ := Array.mem_iff_getElem.1 hs
      obtain ⟨a, ha⟩ := vacancy_eq_none.1 hv i hi
      rw [holder?_eq_some, Array.getElem?_eq_getElem hi, Option.some.injEq] at ha
      rw [ha]
      rfl
    rw [h.count, Array.countP_eq_size.2 hheld] at hroom
    exact absurd hroom (Nat.lt_irrefl _)
  · exact ⟨i, rfl⟩

/-- A new key keeps every other key within reach, as no slot becomes unused again, and is itself
within reach, as all slots between its home and its place are held. -/
theorem Sound.put (h : t.Sound hash) {a : Allocation} (hk : t.Absent a.key) {i : Nat}
    (hv : t.vacancy (t.home hash a.key) = some i) : (t.put i a).Sound hash := by
  obtain ⟨d, hd, hid, hfree, hheld⟩ := vacancy_eq_some hv
  have hi : i < t.capacity := hid ▸ Nat.mod_lt _ h.pos
  have hused : ∀ j : Nat, (t.put i a).slots[j]? = some .unused → t.slots[j]? = some .unused := by
    intro j hj
    rw [slot_put hi] at hj
    split_ifs at hj
    · cases hj
    · exact hj
  refine ⟨?_, ?_, ?_, ?_, ?_, ?_⟩
  · simpa using h.pos
  · simpa using h.bounded
  · have hlt : i < t.slots.size := hi
    have hnone : t.slots[i].allocation?.isSome = false := by
      simpa [holder?, hlt] using hfree
    simp only [SlotTable.put, Array.setIfInBounds, dif_pos hlt, Array.countP_set, hnone, h.count]
    simp [Slot.allocation?]
  · intro j j' b b' hj hj' hbb
    rw [holder?_put hi] at hj hj'
    split_ifs at hj hj' with e e' e'
    · rw [e, e']
    · cases hj
      exact absurd hbb.symm (hk _ _ hj')
    · cases hj'
      exact absurd hbb (hk _ _ hj)
    · exact h.distinct hj hj' hbb
  · intro j b hj
    rw [holder?_put hi] at hj
    rw [home_put, capacity_put]
    split_ifs at hj with e
    · cases hj
      refine ⟨d, hd, e.trans hid, fun d' hd' hu => ?_⟩
      have := hheld d' hd'
      rw [holder?, hused _ hu] at this
      simp [Slot.allocation?] at this
    · obtain ⟨d', hd', hj', hu⟩ := h.reached hj
      exact ⟨d', hd', hj', fun d'' hd'' hn => hu d'' hd'' (hused _ hn)⟩
  · intro h0
    simp [SlotTable.put] at h0

theorem Sound.length_entries (h : t.Sound hash) : t.entries.length = t.allocated := by
  have hrange : (List.range t.capacity).map (fun i => t.slots[i]?) = t.slots.toList.map some := by
    refine List.ext_getElem (by simp [capacity]) fun i hi _ => ?_
    simp only [List.length_map, List.length_range] at hi
    simp [Array.getElem?_eq_getElem (show i < t.slots.size from hi)]
  have hcount := congrArg (List.countP fun s => (s.bind Slot.allocation?).isSome) hrange
  rw [List.countP_map, List.countP_map] at hcount
  rw [entries_eq, List.length_filterMap_eq_countP, h.count, ← Array.countP_toList]
  simp only [Option.isSome_map]
  exact hcount

theorem Sound.allocated_le (h : t.Sound hash) : t.allocated ≤ t.capacity := by
  have hlength := List.length_filterMap_le (fun i => (t.holder? i).map fun a => (i, a))
    (List.range t.capacity)
  rwa [← entries_eq, h.length_entries, List.length_range] at hlength

theorem Sound.holder?_of_empty (h : t.Sound hash) (hempty : t.allocated = 0) (i : Nat) :
    t.holder? i = none := by
  rcases ht : t.holder? i with _ | a
  · rfl
  · have hunused := h.emptied hempty i (lt_capacity_of_holder ht)
    rw [holder?_eq_some, hunused] at ht
    cases ht

/-- The count of held slots after slot `i` was released. -/
theorem countP_released (h : t.Sound hash) {i : Nat} {a : Allocation} (hi : t.holder? i = some a) :
    (t.slots.setIfInBounds i .released).countP (fun s => s.allocation?.isSome)
      = t.allocated - 1 := by
  have hlt : i < t.slots.size := lt_capacity_of_holder hi
  have hsome : t.slots[i].allocation?.isSome = true := by
    simp [holder?, hlt] at hi
    simp [hi]
  simp only [Array.setIfInBounds, dif_pos hlt, Array.countP_set, hsome, h.count]
  simp [Slot.allocation?]

/-- When the last key leaves, no other slot is held. -/
theorem holder?_of_last (h : t.Sound hash) {i j : Nat} {a : Allocation}
    (hi : t.holder? i = some a) (hlast : t.allocated - 1 = 0) (hj : j ≠ i) :
    t.holder? j = none := by
  have hz := countP_released h hi
  rw [hlast, Array.countP_eq_zero] at hz
  rcases hb : t.holder? j with _ | b
  · rfl
  · have hslot := holder?_eq_some.1 hb
    rw [← Array.getElem?_setIfInBounds_ne hj.symm] at hslot
    have := hz _ (Array.mem_of_getElem? hslot)
    simp [Slot.allocation?] at this

theorem holder?_vacate (h : t.Sound hash) {i : Nat} {a : Allocation} (hi : t.holder? i = some a)
    (j : Nat) : (t.vacate i).holder? j = if j = i then none else t.holder? j := by
  have hlt : i < t.slots.size := lt_capacity_of_holder hi
  unfold vacate
  by_cases hlast : t.allocated - 1 = 0
  · have hnone : (if j = i then none else t.holder? j) = none := by
      split_ifs with e
      · rfl
      · exact holder?_of_last h hi hlast e
    rw [hnone, if_pos hlast]
    simp only [holder?, Array.getElem?_replicate]
    split <;> rfl
  · rw [if_neg hlast]
    simp only [holder?, Array.getElem?_setIfInBounds]
    by_cases e : i = j
    · subst e
      simp [hlt, Slot.allocation?]
    · simp [e, Ne.symm e]

theorem absent_vacate (h : t.Sound hash) {i : Nat} {a : Allocation} (hi : t.holder? i = some a) :
    (t.vacate i).Absent a.key := by
  intro j b hb hkey
  rw [holder?_vacate h hi] at hb
  split_ifs at hb with hj
  exact hj (h.distinct hb hi hkey)

theorem Sound.vacate (h : t.Sound hash) {i : Nat} {a : Allocation} (hi : t.holder? i = some a) :
    (t.vacate i).Sound hash := by
  refine ⟨?_, ?_, ?_, ?_, ?_, ?_⟩
  · simpa using h.pos
  · simpa using h.bounded
  · simp only [SlotTable.vacate]
    split_ifs with hlast
    · rw [hlast]
      simp [Array.countP_replicate, Slot.allocation?]
    · exact (countP_released h hi).symm
  · intro j j' b b' hj hj' hbb
    rw [holder?_vacate h hi] at hj hj'
    split_ifs at hj hj'
    exact h.distinct hj hj' hbb
  · intro j b hj
    rw [holder?_vacate h hi] at hj
    rw [home_vacate, capacity_vacate]
    split_ifs at hj with e
    obtain ⟨d, hd, hjd, hu⟩ := h.reached hj
    refine ⟨d, hd, hjd, fun d' hd' hn => hu d' hd' ?_⟩
    simp only [SlotTable.vacate] at hn
    split_ifs at hn with hlast
    · rw [holder?_of_last h hi hlast e] at hj
      cases hj
    · rw [Array.getElem?_setIfInBounds] at hn
      split_ifs at hn
      · cases hn
      · exact hn
  · intro h0 j hj
    rw [capacity_vacate] at hj
    simp only [SlotTable.vacate] at h0 ⊢
    rw [if_pos h0]
    simp [hj]

end Hash

end SlotTable

end IndexPools
