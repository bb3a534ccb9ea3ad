import IndexPools.Proofs.Holding
import IndexPools.Proofs.Loaded

/-!
# Backed keys

No key is held for a register that is gone (`backed_of_declaring`). A slot is taken only in the
visit of a register that the store has; and when a register leaves the store, the key that it names
was released, or held no slot, in the same visit. Which register released a key does not matter: it
takes the slot along for every register that names the key.
-/

namespace IndexPools

/-- The store has a register in the name of the allocation's owner, which asks the pool for the
allocation's key under its tags. -/
def Store.Backs (s : Store) (pool : PoolId) (a : Allocation) : Prop :=
  ∃ r, s.registers[(⟨pool.ns, a.owner⟩ : RegisterKey)]? = some r ∧ r.registry = pool.name ∧
    r.named? = some a.key ∧ r.tags = a.tags

/-- Marks and indices of registers back nothing. -/
theorem Store.Backs.of_kept {s s' : Store} {pool : PoolId} {a : Allocation} (h : s.Backs pool a)
    (hkept : ∀ (k : RegisterKey) (r : RegisterRecord), s.registers[k]? = some r →
      ∃ r' : RegisterRecord, s'.registers[k]? = some r' ∧ r'.registry = r.registry ∧
        r'.named? = r.named? ∧ r'.tags = r.tags) : s'.Backs pool a := by
  obtain ⟨r, hr, hregistry, hname, htags⟩ := h
  obtain ⟨r', hr', hregistry', hname', htags'⟩ := hkept _ r hr
  exact ⟨r', hr', hregistry'.trans hregistry, hname'.trans hname, htags'.trans htags⟩

namespace Engine

def Backed (e : Engine) : Prop :=
  ∀ (pool : PoolId) (i : Nat) (a : Allocation), e.Holds pool i a → e.store.Backs pool a

variable {e : Engine} {r : RegisterRecord}

theorem Backed.settle (hb : e.Backed) (hstored : e.store.registers[r.key]? = some r) (i : Nat) :
    (e.settle r i).2.Backed := by
  intro pool j a h
  rw [holds_settle] at h
  rw [settle_of_stored hstored]
  refine (hb _ _ _ h).of_kept fun k r' hr' => ?_
  simp only [Store.declareRegister, lookup_insert]
  split_ifs with hk
  · cases hstored.symm.trans (hk ▸ hr')
    exact ⟨_, rfl, rfl, rfl, rfl⟩
  · exact ⟨r', hr', rfl, rfl, rfl⟩

/-- A register can go once the key that it names is not held. -/
theorem Backed.discard (hb : e.Backed) (hstored : e.store.registers[r.key]? = some r)
    {pool : PoolId} {key : String} (hpool : r.pool = .ok pool) (hname : r.named? = some key)
    (habsent : ∀ i a, e.Holds pool i a → a.key ≠ key) : (e.discard r).2.Backed := by
  intro q j a h
  rw [holds_discard] at h
  rw [discard_of_stored hstored]
  obtain ⟨r', hr', hregistry, hname', htags⟩ := hb _ _ _ h
  refine ⟨r', ?_, hregistry, hname', htags⟩
  simp only [lookup_erase]
  split_ifs with hk
  · cases hstored.symm.trans (hk ▸ hr')
    have hq : r.pool = .ok q := PoolId.make_eq_ok.2 ⟨by rw [hk], hregistry⟩
    cases hpool.symm.trans hq
    exact absurd (Option.some.inj (hname'.symm.trans hname)) (habsent j a h)
  · exact hr'

theorem RegisterVisit.backed {res : Except ReconcileError RegisterOutcome × Engine}
    (h : RegisterVisit e r res) (hs : e.Sound) (hstored : e.store.registers[r.key]? = some r)
    (hb : e.Backed) : res.2.Backed := by
  cases h with
  | failed => exact hb
  | kept => exact hb.settle hstored _
  | @placed pool key t i hpool _ haccept hlive _ hvacant =>
    have hput : (e.retable pool (t.put i ⟨key, r.key.name, r.tags⟩)).Backed := by
      intro q j b h
      rcases (holds_put hlive hvacant).1 h with ⟨rfl, -, rfl⟩ | hheld
      · obtain ⟨hns, hregistry⟩ := PoolId.make_eq_ok.1 hpool
        exact ⟨r, by rw [← hns]; exact hstored, hregistry, named_of_accept haccept, rfl⟩
      · exact hb q j b hheld
    exact hput.settle hstored i
  | idle hpool _ haccept hlive habsent =>
    refine hb.discard hstored hpool (named_of_accept haccept) fun i a h => ?_
    exact habsent i a ((holds_of_live hlive).1 h)
  | @freed pool key t i a hpool _ haccept hlive hheld hkey =>
    have hvacate : (e.retable pool (t.vacate i)).Backed := by
      intro q j b h
      exact hb q j b ((holds_vacate hs hlive hheld).1 h).1
    refine hvacate.discard hstored hpool (named_of_accept haccept) fun j b h hb' => ?_
    -- the key is at no other slot, since no table holds a key twice
    obtain ⟨h, hne⟩ := (holds_vacate hs hlive hheld).1 h
    exact hne ⟨rfl, hs.holds_inj h ⟨t, hlive, hheld⟩ (hb'.trans hkey.symm)⟩

theorem Visits.backed {policy : PacePolicy} {e' : Engine} (h : Visits policy e e') (hs : e.Sound)
    (hb : e.Backed) : e'.Backed := by
  induction h with
  | start => exact hb
  | @register e' r before _ hstored ih =>
    exact (registerVisit_cases (before.sound hs) r).backed (before.sound hs) hstored ih
  | registry before pool ih =>
    have hv := registryVisit_cases (before.sound hs) policy pool
    intro q j b h
    rw [hv.holds_iff (before.sound hs)] at h
    refine (ih _ _ _ h).of_kept fun k r hr => ⟨r, ?_, rfl, rfl, rfl⟩
    rw [hv.registers_eq]
    exact hr

end Engine

theorem Declaration.backed {e : Engine} (d : Declaration) (hfresh : d.Fresh e.store)
    (hb : e.Backed) : { e with store := d.apply e.store }.Backed := by
  intro pool i a h
  refine (hb _ _ _ h).of_kept fun k r hr => ?_
  simp only [registers_apply]
  cases d with
  | registry | setReady | registryDeleting => exact ⟨r, hr, rfl, rfl, rfl⟩
  | register r' =>
    refine ⟨r, (if_neg fun hk => ?_).trans hr, rfl, rfl, rfl⟩
    cases (hk ▸ hfresh.1).symm.trans hr
  | registerDeleting key =>
    by_cases hk : key = k
    · refine ⟨{ r with deleting := true }, (if_pos hk).trans ?_, rfl, rfl, rfl⟩
      rw [hk, hr]
      rfl
    · exact ⟨r, (if_neg hk).trans hr, rfl, rfl, rfl⟩

/-- Every allocation of a live pool belongs to a register of the store that names its key. -/
theorem backed_of_declaring {policy : PacePolicy} {store : Store} {cap : UInt32}
    {conflicts : ConflictPolicy} {past : List (System × Event)} {s : System}
    (hstore : store.Initial)
    (run : Run policy Declaring (.start store cap conflicts) past s) {pool : PoolId}
    {t : SlotTable} {i : Nat} {a : Allocation} (hlive : s.engine.pools.live[pool]? = some t)
    (hentry : (i, a) ∈ t.entries) :
    ∃ r, s.engine.store.registers[(⟨pool.ns, a.owner⟩ : RegisterKey)]? = some r ∧
      r.registry = pool.name ∧ (r.selector.bind fun sel => sel["name"]?) = some a.key ∧
      r.tags = a.tags := by
  have hsound : (System.start store cap conflicts).engine.Sound :=
    Engine.sound_start store cap conflicts
  have hstart : (System.start store cap conflicts).engine.Backed := by
    rintro q j b ⟨t', ht', -⟩
    simp [System.start, Engine.start, PoolDirectory.empty] at ht'
  have hbacked : s.engine.Backed := run.visited hsound hstore.keyed hstart
    (fun _ d => d.backed) fun _ _ hs hvisits => hvisits.backed hs
  exact hbacked pool i a ⟨t, hlive, SlotTable.mem_entries.1 hentry⟩

/-- Two registers name one key, and its slot changes hands when the first goes. -/
theorem backed_after_handover :
    ∃ (pool : PoolId) (past : List (System × Event)) (s : System) (t : SlotTable),
      Store.empty.Initial ∧
        Run .standard Declaring (.start .empty 3 .reject) past s ∧
        s.engine.pools.live[pool]? = some t ∧ (0, ⟨"a", "y", none⟩) ∈ t.entries ∧
        s.engine.store.registers[(⟨"net", "x"⟩ : RegisterKey)]? = none ∧
        ∃ r, s.engine.store.registers[(⟨"net", "y"⟩ : RegisterKey)]? = some r ∧
          r.registry = "ids" ∧ (r.selector.bind fun sel => sel["name"]?) = some "a" ∧
          r.tags = none := by
  let pool : PoolId := ⟨"net", "ids", rfl, rfl⟩
  let register : String → RegisterRecord := fun name =>
    ⟨⟨"net", name⟩, "ids", some ((∅ : Selector).insert "name" "a"), none, false, none⟩
  let events : List Event :=
    [.pass 1, .declare (.registerDeleting ⟨"net", "x"⟩), .declare (.register (register "y")),
      .pass 0, .declare (.register (register "x")), .pass 0,
      .declare (.registry pool ⟨some 2, some .firstAvailable, none, none⟩)]
  have hrun : Run .standard Declaring (.start .empty 3 .reject) _ _ :=
    run_after events (by decide +kernel)
  have hlive : ((System.start .empty 3 .reject).after .standard events).engine.pools.live[pool]?
      = some ⟨#[.held ⟨"a", "y", none⟩, .unused], 1, .firstAvailable⟩ := by decide +kernel
  have hbacked := backed_of_declaring (i := 0) (a := ⟨"a", "y", none⟩) (.inl rfl) hrun hlive
    (by decide +kernel)
  exact ⟨pool, _, _, _, .inl rfl, hrun, hlive, by decide +kernel, by decide +kernel, hbacked⟩

end IndexPools
