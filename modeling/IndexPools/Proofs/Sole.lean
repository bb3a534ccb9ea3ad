import IndexPools.Proofs.Backing
import IndexPools.Proofs.Undercut

/-!
# Sole registers

Where no two registers of the store ever name one key of one pool (`Store.Sole`), a recorded index
can be trusted (`truthful_of_sole`): as long as the register is in the store, its pool is live and
holds its key at that index, for the register itself and under its tags. A release concerns the
register that asks for it alone, so that no visit makes another register's index untrue
(`Visits.recorded`); and the holder of the key is the one register that backs it.
-/

namespace IndexPools

/-- The pool that a register refers to, with the key that it names. -/
def RegisterRecord.target? (r : RegisterRecord) : Option (PoolId × String) :=
  match r.pool, r.named? with
  | .ok pool, some key => some (pool, key)
  | _, _ => none

theorem RegisterRecord.target?_eq_some {r : RegisterRecord} {pool : PoolId} {key : String} :
    r.target? = some (pool, key) ↔ r.pool = .ok pool ∧ r.named? = some key := by
  unfold target?
  rcases r.pool with err | q
  · simp
  · rcases r.named? with _ | k <;> simp

/-- No two registers name one key of one pool. -/
def Store.Sole (s : Store) : Prop :=
  ∀ r₁ ∈ s.registerList, ∀ r₂ ∈ s.registerList, r₁.target?.isSome → r₁.target? = r₂.target? →
    r₁.key = r₂.key

instance : DecidablePred Store.Sole := fun s =>
  inferInstanceAs (Decidable (∀ r₁ ∈ s.registerList, ∀ r₂ ∈ s.registerList,
    r₁.target?.isSome → r₁.target? = r₂.target? → r₁.key = r₂.key))

theorem Store.Sole.eq {s : Store} (h : s.Sole) (hk : s.Keyed) {k₁ k₂ : RegisterKey}
    {r₁ r₂ : RegisterRecord} (h₁ : s.registers[k₁]? = some r₁) (h₂ : s.registers[k₂]? = some r₂)
    {pool : PoolId} {key : String} (ht₁ : r₁.target? = some (pool, key))
    (ht₂ : r₂.target? = some (pool, key)) : r₁ = r₂ := by
  have hkey := h r₁ (mem_values.2 ⟨k₁, h₁⟩) r₂ (mem_values.2 ⟨k₂, h₂⟩) (by simp [ht₁])
    (ht₁.trans ht₂.symm)
  rw [hk k₁ r₁ h₁, hk k₂ r₂ h₂] at hkey
  rw [hkey, h₂] at h₁
  exact (Option.some.inj h₁).symm

namespace Engine

/-- Every recorded index is true. -/
def Recorded (e : Engine) : Prop :=
  ∀ (k : RegisterKey) (r : RegisterRecord), e.store.registers[k]? = some r → r.index ≠ none →
    e.Truthful r

variable {e e' : Engine}

theorem Visits.recorded {policy : PacePolicy} (h : Visits policy e e') (hs : e.Sound)
    (hk : e.store.Keyed) (hsole : e.store.Sole) (hrec : e.Recorded) : e'.Recorded := by
  induction h with
  | start => exact hrec
  | @register e' d before hread hstored ih =>
    have hs' := before.sound hs
    have hv := registerVisit_cases hs' d
    intro k r hr hindex
    by_cases hkd : k = d.key
    · rw [hkd] at hr
      rcases hv.truthful_self hstored hr with ⟨err, hsame⟩ | ht
      · rw [hsame] at hr ⊢
        exact ih _ r hr hindex
      · exact ht
    · rw [hv.of_ne hkd] at hr
      have ht := ih k r hr hindex
      refine (hv.truthful hs' hstored ht).resolve_right ?_
      -- a register that releases the key of `r` would name it beside `r`
      rintro ⟨-, hpool, hname, -⟩
      obtain ⟨pool, i, a, hrpool, -, -, hrname⟩ := ht
      obtain ⟨r₀, hr₀, heq⟩ := before.register_eq hs hr
      have htarget : r₀.target? = some (pool, a.key) := by
        rw [heq] at hrpool hrname
        exact RegisterRecord.target?_eq_some.2 ⟨hrpool, hrname⟩
      have hd : d = r₀ := hsole.eq hk hread hr₀
        (RegisterRecord.target?_eq_some.2 ⟨hpool.trans hrpool, hname.trans hrname⟩) htarget
      exact hkd ((hk k r₀ hr₀).symm.trans (congrArg RegisterRecord.key hd.symm))
  | @registry e' before pool ih =>
    have hs' := before.sound hs
    have hv := registryVisit_cases hs' policy pool
    intro k r hr hindex
    rw [hv.registers_eq] at hr
    exact (ih k r hr hindex).of_holds fun _ _ _ => (hv.holds_iff hs').2

end Engine

/-- A fresh declaration records no index, and marks change none. -/
theorem Declaration.recorded {e : Engine} (d : Declaration) (hfresh : d.Fresh e.store)
    (hrec : e.Recorded) : { e with store := d.apply e.store }.Recorded := by
  intro k r hr hindex
  rcases register_cases hr with hr' | ⟨rfl, -⟩ | ⟨r', hr', rfl⟩
  · exact hrec k r hr' hindex
  · exact absurd hfresh.2 hindex
  · exact hrec k r' hr' hindex

/-- Passes and declarations of what is new, which never leave two registers with one key. -/
def DeclaringSole (policy : PacePolicy) (s : System) (event : Event) : Prop :=
  Declaring s event ∧ (s.step policy event).engine.store.Sole

instance (policy : PacePolicy) (s : System) : DecidablePred (DeclaringSole policy s) := fun event =>
  inferInstanceAs (Decidable (Declaring s event ∧ (s.step policy event).engine.store.Sole))

/-- What holds at every point of a run whose registers are sole. -/
structure System.Faithful (s : System) : Prop where
  keyed : s.engine.store.Keyed
  sole : s.engine.store.Sole
  backed : s.engine.Backed
  recorded : s.engine.Recorded

theorem faithful_start (cap : UInt32) (conflicts : ConflictPolicy) :
    (System.start .empty cap conflicts).Faithful := by
  refine ⟨Store.keyed_empty, ?_, ?_, ?_⟩
  · intro r₁ h₁
    obtain ⟨k, hk⟩ := mem_values.1 h₁
    simp [System.start, Engine.start, Store.empty] at hk
  · rintro pool i a ⟨t, ht, -⟩
    simp [System.start, Engine.start, PoolDirectory.empty] at ht
  · intro k r hr
    simp [System.start, Engine.start, Store.empty] at hr

theorem faithful_step {policy : PacePolicy} {s : System} (event : Event) (hs : s.engine.Sound)
    (hadmits : DeclaringSole policy s event) (h : s.Faithful) : (s.step policy event).Faithful := by
  obtain ⟨hdeclaring, hsole⟩ := hadmits
  cases event with
  | declare d =>
    exact ⟨d.keyed h.keyed, hsole, d.backed hdeclaring h.backed, d.recorded hdeclaring h.recorded⟩
  | correct c => exact hdeclaring.elim
  | call c => exact hdeclaring.elim
  | pass now =>
    have hvisits := Engine.visits_pass hs h.keyed policy s.schedule now
    exact ⟨hvisits.keyed hs h.keyed, hsole, hvisits.backed hs h.backed,
      hvisits.recorded hs h.keyed h.sole h.recorded⟩

/-- The pool of a register with an index is live, and holds the register's key at the index in the
register's name and under its tags. -/
theorem truthful_of_sole {policy : PacePolicy} {cap : UInt32} {conflicts : ConflictPolicy}
    {past : List (System × Event)} {s : System}
    (run : Run policy (DeclaringSole policy) (.start .empty cap conflicts) past s)
    {r : RegisterRecord} (hr : r ∈ s.engine.store.registerList) {i : Nat}
    (hindex : r.index = some i) :
    ∃ pool key t, r.pool = .ok pool ∧ (r.selector.bind fun sel => sel["name"]?) = some key ∧
      s.engine.pools.live[pool]? = some t ∧ (i, ⟨key, r.key.name, r.tags⟩) ∈ t.entries := by
  have h : s.Faithful := run.invariant (Engine.sound_start .empty cap conflicts)
    (faithful_start cap conflicts) fun _ event => faithful_step event
  obtain ⟨k, hk⟩ := mem_values.1 hr
  obtain ⟨pool, j, a, hpool, hj, hheld, hname⟩ := h.recorded k r hk (by simp [hindex])
  obtain rfl := Option.some.inj (hj.symm.trans hindex)
  obtain ⟨r', hr', hregistry, hname', htags⟩ := h.backed pool j a hheld
  have hkey' : r'.key = ⟨pool.ns, a.owner⟩ := h.keyed _ r' hr'
  have hpool' : r'.pool = .ok pool := PoolId.make_eq_ok.2 ⟨by rw [hkey'], hregistry⟩
  -- the register that backs the allocation is `r`, as no other names its key
  obtain rfl : r' = r := h.sole.eq h.keyed hr' hk
    (RegisterRecord.target?_eq_some.2 ⟨hpool', hname'⟩)
    (RegisterRecord.target?_eq_some.2 ⟨hpool, hname⟩)
  obtain ⟨t, hlive, hholder⟩ := hheld
  have ha : (⟨a.key, r'.key.name, r'.tags⟩ : Allocation) = a := by rw [hkey', htags]
  exact ⟨pool, a.key, t, hpool, hname, hlive, SlotTable.mem_entries.2 (ha ▸ hholder)⟩

/-- The pool has one slot: "y" gets the index that "x" had, in the pass in which "x" goes, and keeps
it in its record while the registry is held back. -/
theorem truthful_after_succession :
    ∃ (past : List (System × Event)) (s : System) (r : RegisterRecord),
      Run .standard (DeclaringSole .standard) (.start .empty 3 .reject) past s ∧
        s.engine.store.registers[(⟨"net", "x"⟩ : RegisterKey)]? = none ∧
        r ∈ s.engine.store.registerList ∧ r.key.name = "y" ∧ r.index = some 0 ∧
        ∃ pool key t, r.pool = .ok pool ∧ (r.selector.bind fun sel => sel["name"]?) = some key ∧
          s.engine.pools.live[pool]? = some t ∧ (0, ⟨key, r.key.name, r.tags⟩) ∈ t.entries := by
  let pool : PoolId := ⟨"net", "ids", rfl, rfl⟩
  let register : String → String → Option Nat → RegisterRecord := fun name key index =>
    ⟨⟨"net", name⟩, "ids", some ((∅ : Selector).insert "name" key), none, false, index⟩
  let events : List Event :=
    [.pass 2, .declare (.setReady pool false), .pass 1,
      .declare (.registerDeleting ⟨"net", "x"⟩), .pass 0,
      .declare (.register (register "y" "b" none)), .declare (.register (register "x" "a" none)),
      .pass 0, .declare (.registry pool ⟨some 1, some .firstAvailable, none, none⟩)]
  have hrun : Run .standard (DeclaringSole .standard) (.start .empty 3 .reject) _ _ :=
    run_after events (by decide +kernel)
  have hmem : register "y" "b" (some 0) ∈
      ((System.start .empty 3 .reject).after .standard events).engine.store.registerList := by
    decide +kernel
  exact ⟨_, _, _, hrun, by decide +kernel, hmem, rfl, rfl, truthful_of_sole hrun hmem rfl⟩

end IndexPools
