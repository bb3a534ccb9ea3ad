import IndexPools.Proofs.History
import IndexPools.Proofs.Holding

/-!
# Why requests are refused

A request passes four checks before its pool's table is looked at: its registry is declared, the
registry serves, the selector names a key, and the pool is set up. It is refused for the first of
these that it fails (`Engine.Refuses`), and else gets to the table with its key (`Engine.Reaches`).
There a release always succeeds, while a registration is declined if the key is missing and every
slot is held, or if another holder has the key and conflicts are refused (`Engine.Declines`). These
are the only errors there are, and none of them changes anything (`answers_in_order`).
-/

namespace IndexPools

/-- What is wrong with a selector that names no key. -/
inductive Unnamed : Option Selector → SelectorFault → Prop
  | missing : Unnamed none .missing
  | noName {s : Selector} (hname : s["name"]? = none) : Unnamed (some s) .noName
  | emptyName {s : Selector} (hname : s["name"]? = some "") : Unnamed (some s) .emptyName

namespace Request

theorem key_eq_error {r : Request} {fault : SelectorFault} :
    r.key = .error fault ↔ Unnamed r.selector fault := by
  unfold key nameEntry
  generalize r.selector = selector
  constructor
  · intro h
    rcases selector with _ | s
    · cases h
      exact .missing
    · rcases hname : s["name"]? with _ | k
      · simp only [hname] at h
        cases h
        exact .noName hname
      · simp only [hname] at h
        split_ifs at h with hempty
        cases h
        exact .emptyName (hempty ▸ hname)
  · intro h
    cases h with
    | missing => rfl
    | noName hname => simp only [hname]
    | emptyName hname => simp only [hname, ↓reduceIte]

end Request

namespace Engine

/-- The pool's registry is declared, ready and not disabled. -/
def Serves (e : Engine) (pool : PoolId) : Prop :=
  ∃ record, e.store.registries[pool]? = some record ∧ record.ready = true ∧
    record.spec.adminState ≠ some .disable

/-- Why a request gets to no table: the first check that it fails. -/
inductive Refuses (e : Engine) (r : Request) : RequestError → Prop
  | undeclared (hrecord : e.store.registries[r.pool]? = none) : Refuses e r (.poolNotFound r.pool)
  | closed {record : RegistryRecord} (hrecord : e.store.registries[r.pool]? = some record)
      (hclosed : record.ready = false ∨ record.spec.adminState = some .disable) :
      Refuses e r (.poolNotReady r.pool)
  | unnamed {fault : SelectorFault} (hserves : e.Serves r.pool)
      (hunnamed : Unnamed r.selector fault) : Refuses e r (.invalid fault)
  | unset {key : String} (hserves : e.Serves r.pool) (hnamed : r.named? = some key)
      (hnonempty : key ≠ "") (hunset : r.pool ∉ e.poolIds) : Refuses e r (.poolNotFound r.pool)

/-- A request passes every check, and gets to the table of its pool with its key. -/
structure Reaches (e : Engine) (r : Request) (key : String) (t : SlotTable) : Prop where
  serves : e.Serves r.pool
  named : r.named? = some key
  nonempty : key ≠ ""
  live : e.pools.live[r.pool]? = some t

/-- Why a table gives no index to a request that got there. -/
inductive Declines (e : Engine) (r : Request) : RequestError → Prop
  | exhausted {key : String} {t : SlotTable} (hreaches : e.Reaches r key t)
      (habsent : ∀ i a, (i, a) ∈ t.entries → a.key ≠ key)
      (hfull : ∀ i < t.capacity, ∃ a, (i, a) ∈ t.entries) :
      Declines e r (.poolExhausted r.pool t.capacity)
  | conflict {key : String} {t : SlotTable} {i : Nat} {a : Allocation}
      (hreaches : e.Reaches r key t) (hentry : (i, a) ∈ t.entries) (hkey : a.key = key)
      (hreject : e.conflicts = .reject) (hother : a.owner ≠ r.owner ∨ a.tags ≠ r.tags) :
      Declines e r (.ownershipConflict r.pool key a.owner)

variable {e : Engine} {r : Request} {pool : PoolId} {key : String} {t : SlotTable}
  {err : RequestError}

theorem serves_eq_true : e.store.serves pool = .ok true ↔ e.Serves pool := by
  unfold Store.serves Store.registry Serves
  rcases e.store.registries[pool]? with _ | record
  · simp [Except.map]
  · simp [Except.map, RegistryRecord.serves, RegistrySpec.isEnabled]

theorem serves_eq_false : e.store.serves pool = .ok false ↔
    ∃ record, e.store.registries[pool]? = some record ∧
      (record.ready = false ∨ record.spec.adminState = some .disable) := by
  unfold Store.serves Store.registry
  rcases e.store.registries[pool]? with _ | record
  · simp [Except.map]
  · simp only [Except.map, RegistryRecord.serves, RegistrySpec.isEnabled, Except.ok.injEq,
      Option.some.injEq, exists_eq_left']
    rcases record.ready <;> simp

theorem accept_eq_ok : e.accept r = .ok key ↔
    e.Serves r.pool ∧ r.named? = some key ∧ key ≠ "" := by
  rw [← serves_eq_true, ← Request.key_eq_ok]
  unfold accept
  rcases e.store.serves r.pool with err | _ | _
  · simp
  · simp
  · rcases r.key with fault | k <;> simp [Except.mapError]

/-- A refused request is answered with the first check that it fails, and changes nothing. -/
theorem Refuses.answers (h : e.Refuses r err) :
    e.register r = (.error err, e) ∧ e.deregister r = (.error err, e) := by
  have hrefused : ∀ {err : RequestError}, e.accept r = .error err →
      e.register r = (.error err, e) ∧ e.deregister r = (.error err, e) := by
    intro err haccept
    rw [register_eq, deregister_eq]
    rw [haccept]
    exact ⟨rfl, rfl⟩
  cases h with
  | undeclared hrecord =>
    refine hrefused ?_
    unfold accept
    rw [serves_eq_error.2 ⟨hrecord, rfl⟩]
    rfl
  | closed hrecord hclosed =>
    refine hrefused ?_
    unfold accept
    rw [serves_eq_false.2 ⟨_, hrecord, hclosed⟩]
  | unnamed hserves hunnamed =>
    refine hrefused ?_
    unfold accept
    rw [serves_eq_true.2 hserves, Request.key_eq_error.2 hunnamed]
    rfl
  | unset hserves hnamed hnonempty hunset =>
    rw [mem_poolIds, not_exists] at hunset
    have hnone := Option.eq_none_iff_forall_ne_some.2 hunset
    rw [register_eq, deregister_eq]
    simp only [accept_eq_ok.2 ⟨hserves, hnamed, hnonempty⟩, PoolDirectory.onPool, hnone, and_self]

/-- Every request is refused or gets to a table. -/
theorem refuses_or_reaches (e : Engine) (r : Request) :
    (∃ err, e.Refuses r err) ∨ ∃ key t, e.Reaches r key t := by
  rcases hrecord : e.store.registries[r.pool]? with _ | record
  · exact .inl ⟨_, .undeclared hrecord⟩
  · by_cases hclosed : record.ready = false ∨ record.spec.adminState = some .disable
    · exact .inl ⟨_, .closed hrecord hclosed⟩
    · rw [not_or, Bool.not_eq_false] at hclosed
      have hserves : e.Serves r.pool := ⟨record, hrecord, hclosed⟩
      rcases hkey : r.key with fault | key
      · exact .inl ⟨_, .unnamed hserves (Request.key_eq_error.1 hkey)⟩
      · obtain ⟨hnamed, hnonempty⟩ := Request.key_eq_ok.1 hkey
        rcases hlive : e.pools.live[r.pool]? with _ | t
        · refine .inl ⟨_, .unset hserves hnamed hnonempty ?_⟩
          rw [mem_poolIds, hlive]
          exact fun ⟨t, ht⟩ => nomatch ht
        · exact .inr ⟨key, t, hserves, hnamed, hnonempty, hlive⟩

theorem Reaches.accept (h : e.Reaches r key t) : e.accept r = .ok key :=
  accept_eq_ok.2 ⟨h.serves, h.named, h.nonempty⟩

/-- A key that is missing from a full table gets no index. -/
theorem register_of_full (hs : e.Sound) (h : e.Reaches r key t) (habsent : t.Absent key)
    (hfull : ∀ i < t.capacity, ∃ a, t.holder? i = some a) :
    e.register r = (.error (.poolExhausted r.pool t.capacity), e) := by
  have hnone : t.vacancy (t.home keyDigest key) = none := SlotTable.vacancy_eq_none.2 hfull
  rw [register_eq]
  rw [h.accept]
  simp only [PoolDirectory.onPool, h.live,
    SlotTable.insert_of_absent (hs.tables h.live).pos habsent, hnone]
  rfl

theorem Declines.answer (hs : e.Sound) (h : e.Declines r err) :
    e.register r = (.error err, e) := by
  cases h with
  | exhausted hreaches habsent hfull =>
    simp only [SlotTable.mem_entries] at habsent hfull
    exact register_of_full hs hreaches habsent hfull
  | conflict hreaches hentry hkey hreject hother =>
    subst hkey
    rw [register_of_held hs hreaches.accept hreaches.live (SlotTable.mem_entries.1 hentry),
      if_pos ⟨hreject, not_and_or.2 hother⟩]

/-- What a table gives to a request that got there. -/
theorem register_of_reaches (hs : e.Sound) (h : e.Reaches r key t) :
    (∃ i < t.capacity, (e.register r).1 = .ok i) ∨ ∃ err, e.Declines r err := by
  rcases t.held_or_absent key with ⟨i, a, hheld, rfl⟩ | habsent
  · rw [register_of_held hs h.accept h.live hheld]
    split_ifs with hother
    · exact .inr ⟨_, .conflict h (SlotTable.mem_entries.2 hheld) rfl hother.1
        (not_and_or.1 hother.2)⟩
    · exact .inl ⟨i, SlotTable.lt_capacity_of_holder hheld, rfl⟩
  · rcases hvacant : t.vacancy (t.home keyDigest key) with _ | i
    · rw [SlotTable.vacancy_eq_none] at hvacant
      simp only [← SlotTable.mem_entries] at hvacant
      exact .inr ⟨_, .exhausted h (fun i a ha => habsent i a (SlotTable.mem_entries.1 ha)) hvacant⟩
    · rw [register_of_absent hs h.accept h.live habsent hvacant]
      exact .inl ⟨i, (SlotTable.lt_of_vacancy hvacant).1, rfl⟩

theorem deregister_eq_error : (e.deregister r).1 = .error err ↔ e.Refuses r err := by
  refine ⟨fun herr => ?_, fun h => congrArg Prod.fst h.answers.2⟩
  rcases e.refuses_or_reaches r with ⟨err', h⟩ | ⟨key, t, h⟩
  · rw [h.answers.2] at herr
    cases herr
    exact h
  · cases (deregister_of_accept h.accept h.live).symm.trans herr

theorem register_eq_error (hs : e.Sound) :
    (e.register r).1 = .error err ↔ e.Refuses r err ∨ e.Declines r err := by
  refine ⟨fun herr => ?_, ?_⟩
  · rcases e.refuses_or_reaches r with ⟨err', h⟩ | ⟨key, t, h⟩
    · rw [h.answers.1] at herr
      cases herr
      exact .inl h
    · rcases register_of_reaches hs h with ⟨i, -, hok⟩ | ⟨err', hdeclines⟩
      · cases hok.symm.trans herr
      · rw [hdeclines.answer hs] at herr
        cases herr
        exact .inr hdeclines
  · rintro (h | h)
    · exact congrArg Prod.fst h.answers.1
    · exact congrArg Prod.fst (h.answer hs)

end Engine

/-- A request fails just for the first check that it does not pass, and a registration also for a
full table that misses its key, or for another holder of the key if conflicts are refused. Any other
release succeeds, any other registration comes to an index of the table, and what fails changes
nothing. -/
theorem answers_in_order {policy : PacePolicy} {store : Store} {cap : UInt32}
    {conflicts : ConflictPolicy} {past : List (System × Event)} {s : System}
    (run : Run policy (fun _ _ => True) (.start store cap conflicts) past s)
    {calls : List (Engine × Call)} {e : Engine} (since : Trace s.engine calls e) (r : Request) :
    (∀ err, (e.deregister r).1 = .error err ↔ e.Refuses r err) ∧
      ((e.deregister r).1 = .ok () ↔ ∃ key t, e.Reaches r key t) ∧
      (∀ err, (e.register r).1 = .error err ↔ e.Refuses r err ∨ e.Declines r err) ∧
      ((∀ err, ¬ e.Refuses r err ∧ ¬ e.Declines r err) →
        ∃ key t i, e.Reaches r key t ∧ i < t.capacity ∧ (e.register r).1 = .ok i) ∧
      (∀ err, (e.deregister r).1 = .error err → (e.deregister r).2 = e) ∧
      ∀ err, (e.register r).1 = .error err → (e.register r).2 = e := by
  have hs : e.Sound := since.sound (run.sound (Engine.sound_start store cap conflicts))
  refine ⟨fun err => Engine.deregister_eq_error, ⟨fun hok => ?_, ?_⟩,
    fun err => Engine.register_eq_error hs, fun hneither => ?_, fun err herr => ?_,
    fun err herr => ?_⟩
  · rcases e.refuses_or_reaches r with ⟨err, h⟩ | h
    · rw [h.answers.2] at hok
      cases hok
    · exact h
  · rintro ⟨key, t, h⟩
    exact Engine.deregister_of_accept h.accept h.live
  · rcases e.refuses_or_reaches r with ⟨err, h⟩ | ⟨key, t, h⟩
    · exact absurd h (hneither err).1
    · rcases Engine.register_of_reaches hs h with ⟨i, hi, hok⟩ | ⟨err, hdeclines⟩
      · exact ⟨key, t, i, h, hi, hok⟩
      · exact absurd hdeclines (hneither err).2
  · rw [(Engine.deregister_eq_error.1 herr).answers.2]
  · rcases (Engine.register_eq_error hs).1 herr with h | h
    · rw [h.answers.1]
    · rw [h.answer hs]

/-- The one slot is held by "a" for "x", who finds it again although the table is full. Other tags
alone make a conflict, and another key finds no slot. Once the registry is disabled, though it is
still ready, a request without a key is refused for that and not for the key. -/
theorem answers_in_order_full :
    ∃ (ids : PoolId) (past : List (System × Event)) (s : System) (disabled : Engine)
      (keyless : Request),
      Run .standard (fun _ _ => True) (.start .empty 3 .reject) past s ∧
        Trace s.engine [] disabled ∧
        (s.engine.register (.forKey ids "x" "a" none)).1 = .ok 0 ∧
        s.engine.Declines (.forKey ids "x" "a" (some ∅)) (.ownershipConflict ids "a" "x") ∧
        s.engine.Declines (.forKey ids "x" "b" none) (.poolExhausted ids 1) ∧
        s.engine.Refuses keyless (.invalid .noName) ∧
        disabled.Refuses keyless (.poolNotReady ids) ∧
        (disabled.register keyless).2 = disabled := by
  let ids : PoolId := ⟨"net", "ids", rfl, rfl⟩
  let events : List Event :=
    [.call (.allocate ids "x" "a" none), .call (.initPool ids 1 .firstAvailable),
      .declare (.registry ids (.ofSize 1))]
  let s : System := (System.start .empty 3 .reject).after .standard events
  let disabled : Engine := { s.engine with
    store := s.engine.store.declareRegistry ids ⟨some 1, none, some .disable, none⟩ }
  let keyless : Request := ⟨ids, "x", some ∅, none⟩
  have hrun : Run .standard (fun _ _ => True) (.start .empty 3 .reject) _ s :=
    run_after events fun _ _ => trivial
  have hclosed : Trace s.engine [] disabled := Trace.start.store _
  have hdeclined : ∀ {r : Request} {err : RequestError}, (s.engine.deregister r).1 = .ok () →
      (s.engine.register r).1 = .error err → s.engine.Declines r err := by
    intro r err hok herr
    obtain ⟨hrelease, -, hregister, -⟩ := answers_in_order hrun .start r
    refine ((hregister err).1 herr).resolve_left fun hrefuses => ?_
    cases hok.symm.trans ((hrelease err).2 hrefuses)
  obtain ⟨hrefuses, -⟩ := answers_in_order hrun .start keyless
  obtain ⟨hrefuses', -, -, -, -, hsame⟩ := answers_in_order hrun hclosed keyless
  exact ⟨ids, _, s, disabled, keyless, hrun, hclosed, by decide +kernel,
    hdeclined (by decide +kernel) (by decide +kernel),
    hdeclined (by decide +kernel) (by decide +kernel),
    (hrefuses _).1 (by decide +kernel), (hrefuses' _).1 (by decide +kernel),
    hsame (.poolNotReady ids) (by decide +kernel)⟩

end IndexPools
