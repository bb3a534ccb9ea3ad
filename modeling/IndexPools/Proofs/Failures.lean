import IndexPools.Proofs.Loaded

/-!
# Failed visits of registers

A key is placed or released first, and its register is written or removed afterwards. What goes
wrong with the key changes nothing (`register_frame`, `deregister_frame`). What can go wrong
afterwards is that the store has no such register (`failure_cases`), and then the key stays as it
is: nothing takes the placement or the release back. So a visit that fails changes nothing as long
as its register is stored (`failure_of_stored`), and of one that is not stored it may leave a key in
the pool, or without its slot.
-/

namespace IndexPools

namespace Engine

variable {e e' : Engine} {r : RegisterRecord} {err : ReconcileError}

/-- A key is placed without a look at the registers, and nothing changes if it cannot be. -/
theorem register_frame (e : Engine) (q : Request) :
    (∃ err, e.register q = (.error err, e)) ∨
      ∃ i pools pacer, e.register q = (.ok i, { e with pools, pacer }) := by
  rw [register_eq]
  rcases e.accept q with err | key
  · exact .inl ⟨err, rfl⟩
  · dsimp only
    rcases e.pools.onPool q.pool fun t => t.insert keyDigest key q.owner q.tags with
      _ | ⟨err | placement, pools⟩
    · exact .inl ⟨_, rfl⟩
    · exact .inl ⟨_, rfl⟩
    · rcases placement with ⟨i, outcome⟩
      rcases outcome with _ | _ | ⟨owner, tags⟩
      · exact .inr ⟨i, pools, e.pacer.reset q.pool, rfl⟩
      · exact .inr ⟨i, e.pools, e.pacer, rfl⟩
      · obtain ⟨store, pools, pacer, conflicts⟩ := e
        cases conflicts with
        | keepExisting => exact .inr ⟨i, pools, pacer, rfl⟩
        | reject => exact .inl ⟨_, rfl⟩

/-- A key is released without a look at the registers, and nothing changes if it cannot be. -/
theorem deregister_frame (e : Engine) (q : Request) :
    (∃ err, e.deregister q = (.error err, e)) ∨
      ∃ pools pacer, e.deregister q = (.ok (), { e with pools, pacer }) := by
  rw [deregister_eq]
  rcases e.accept q with err | key
  · exact .inl ⟨err, rfl⟩
  · dsimp only
    rcases e.pools.onPool q.pool fun t => t.delete keyDigest key with _ | ⟨_ | _, pools⟩
    · exact .inl ⟨_, rfl⟩
    · exact .inr ⟨e.pools, e.pacer, rfl⟩
    · exact .inr ⟨pools, e.pacer.reset q.pool, rfl⟩

theorem settle_of_error {i : Nat} (h : e.settle r i = (.error err, e')) :
    e' = e ∧ err = .store (.registerNotFound r.key) ∧ e.store.registers[r.key]? = none ∧
      r.index ≠ some i := by
  unfold settle Store.setIndex Store.changeRegister at h
  by_cases hi : r.index = some i
  · rw [if_pos hi] at h
    cases h
  · rw [if_neg hi] at h
    rcases hstored : e.store.registers[r.key]? with _ | r'
    · rw [hstored] at h
      cases h
      exact ⟨rfl, rfl, rfl, hi⟩
    · rw [hstored] at h
      cases h

theorem discard_of_error (h : e.discard r = (.error err, e')) :
    e' = e ∧ err = .store (.registerNotFound r.key) ∧ e.store.registers[r.key]? = none := by
  unfold discard Store.removeRegister at h
  rcases hstored : e.store.registers[r.key]? with _ | r'
  · rw [hstored] at h
    cases h
    exact ⟨rfl, rfl, rfl⟩
  · rw [hstored] at h
    cases h

/-- A visit fails before anything changed, or once its key was placed or released and the store
turns out not to have the register. -/
theorem failure_cases (h : e.reconcileRegister r = (.error err, e')) :
    (e' = e ∧ err ≠ .store (.registerNotFound r.key)) ∨
      (err = .store (.registerNotFound r.key) ∧ e.store.registers[r.key]? = none ∧
        e'.store = e.store ∧ ∃ pool, r.pool = .ok pool ∧
          if r.deleting then e.deregister (r.ask pool) = (.ok (), e')
          else ∃ i, r.index ≠ some i ∧ e.register (r.ask pool) = (.ok i, e')) := by
  rcases hpool : r.pool with idErr | pool
  · unfold reconcileRegister RegisterRecord.request at h
    rw [hpool] at h
    cases h
    exact .inl ⟨rfl, nofun⟩
  · rw [reconcileRegister_eq hpool] at h
    split_ifs at h with hleaves
    · rcases e.deregister_frame (r.ask pool) with ⟨reqErr, hq⟩ | ⟨pools, pacer, hq⟩
      · rw [hq] at h
        cases h
        exact .inl ⟨rfl, nofun⟩
      · rw [hq] at h
        obtain ⟨rfl, rfl, hnone⟩ := discard_of_error h
        exact .inr ⟨rfl, hnone, rfl, pool, rfl, by rw [if_pos hleaves]; exact hq⟩
    · rcases e.register_frame (r.ask pool) with ⟨reqErr, hq⟩ | ⟨i, pools, pacer, hq⟩
      · rw [hq] at h
        cases h
        exact .inl ⟨rfl, nofun⟩
      · rw [hq] at h
        obtain ⟨rfl, rfl, hnone, hi⟩ := settle_of_error h
        exact .inr ⟨rfl, hnone, rfl, pool, rfl, by rw [if_neg hleaves]; exact ⟨i, hi, hq⟩⟩

/-- The visit of a register that is stored changes nothing if it fails. -/
theorem failure_of_stored {r' : RegisterRecord} (hstored : e.store.registers[r.key]? = some r')
    (h : (e.reconcileRegister r).1 = .error err) : e.reconcileRegister r = (.error err, e) := by
  rcases failure_cases (Prod.ext h rfl) with ⟨hsame, -⟩ | ⟨-, hnone, -⟩
  · exact Prod.ext h hsame
  · cases hnone.symm.trans hstored

end Engine

/-- A visit that fails writes nothing to the store, and leaves tables and levels as they are, unless
the store has no register of that key; then they are as the placement or the release of the key
left them. -/
theorem failure_of_visit {e e' : Engine} {r : RegisterRecord} {err : ReconcileError}
    (h : e.reconcileRegister r = (.error err, e')) :
    e'.store = e.store ∧
      (err ≠ .store (.registerNotFound r.key) → e' = e) ∧
      ((∃ r', e.store.registers[r.key]? = some r') → e' = e) ∧
      (err = .store (.registerNotFound r.key) → e.store.registers[r.key]? = none ∧
        ∃ pool, r.pool = .ok pool ∧
          if r.deleting then e.deregister (r.ask pool) = (.ok (), e')
          else ∃ i, r.index ≠ some i ∧ e.register (r.ask pool) = (.ok i, e')) := by
  have hstored : (∃ r', e.store.registers[r.key]? = some r') → e' = e := by
    rintro ⟨r', hr'⟩
    have hsame := Engine.failure_of_stored hr' (congrArg Prod.fst h)
    exact congrArg Prod.snd (h.symm.trans hsame)
  rcases Engine.failure_cases h with ⟨rfl, herr⟩ | ⟨herr, hnone, hstore, hcarried⟩
  · exact ⟨rfl, fun _ => rfl, hstored, fun h => absurd h herr⟩
  · exact ⟨hstore, fun h => absurd herr h, hstored, fun _ => ⟨hnone, hcarried⟩⟩

namespace OneSlot

def pool : PoolId := .netIds

/-- A pool with one slot, which is vacant. -/
def vacant : System :=
  (System.start .empty 3 .keepExisting).after .standard
    [.pass 0, .declare (.registry pool ⟨some 1, some .firstAvailable, none, none⟩)]

def x : RegisterRecord := .naming "net" "x" "ids" "a"

/-- The slot is taken when a register of another key is declared. -/
def taken : System :=
  vacant.after .standard
    [.declare (.register (.naming "net" "y" "ids" "b")), .pass 1, .declare (.register x)]

end OneSlot

/-- A register that is stored finds the pool full, and one that is not stored takes the last slot
all the same. -/
theorem failure_of_visit_exhausted :
    (OneSlot.taken.engine.reconcileRegister (.naming "net" "y" "ids" "b")).2 =
        OneSlot.taken.engine ∧
      (OneSlot.vacant.engine.reconcileRegister OneSlot.x).1 =
        .error (.store (.registerNotFound OneSlot.x.key)) ∧
      ∃ pool i, OneSlot.x.pool = .ok pool ∧ OneSlot.vacant.engine.register (OneSlot.x.ask pool) =
        (.ok i, (OneSlot.vacant.engine.reconcileRegister OneSlot.x).2) := by
  have hfull : (OneSlot.taken.engine.reconcileRegister (.naming "net" "y" "ids" "b")).1 =
      .error (.request (.poolExhausted OneSlot.pool 1)) := by decide +kernel
  have hgone : (OneSlot.vacant.engine.reconcileRegister OneSlot.x).1 =
      .error (.store (.registerNotFound OneSlot.x.key)) := by decide +kernel
  obtain ⟨-, hsame, -⟩ := failure_of_visit (Prod.ext hfull rfl)
  obtain ⟨-, -, -, hcarried⟩ := failure_of_visit (Prod.ext hgone rfl)
  obtain ⟨-, pool, hpool, i, -, hplaced⟩ := hcarried rfl
  exact ⟨hsame nofun, hgone, pool, i, hpool, hplaced⟩

theorem failure_of_unstored :
    ¬ ∀ (policy : PacePolicy) (store : Store) (cap : UInt32) (conflicts : ConflictPolicy)
      (past : List (System × Event)) (s : System) (r : RegisterRecord) (err : ReconcileError)
      (e' : Engine), store.Initial →
      Run policy (fun _ _ => True) (.start store cap conflicts) past s →
      s.engine.reconcileRegister r = (.error err, e') →
      e'.pools = s.engine.pools ∧ e'.pacer = s.engine.pacer ∧ e'.store = s.engine.store := by
  intro h
  have hrun : Run .standard (fun _ _ => True) (.start .empty 3 .keepExisting) _ OneSlot.vacant :=
    run_after _ fun _ _ => trivial
  have hgone : (OneSlot.vacant.engine.reconcileRegister OneSlot.x).1 =
      .error (.store (.registerNotFound OneSlot.x.key)) := by decide +kernel
  have hsame := (h _ _ _ _ _ _ OneSlot.x _ _ (.inl rfl) hrun (Prod.ext hgone rfl)).1
  have hplaced : (OneSlot.vacant.engine.reconcileRegister OneSlot.x).2.pools ≠
      OneSlot.vacant.engine.pools := by decide +kernel
  exact hplaced hsame

end IndexPools
