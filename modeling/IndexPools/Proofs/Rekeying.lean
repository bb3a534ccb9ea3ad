import IndexPools.Proofs.History
import IndexPools.Proofs.Holding

/-!
# Calls on the keys of a pool

Keys are placed and released by four calls (`Call.keyPool?`), each of which leaves the engine as it
is, or places a key that was missing, or releases one that was held (`Call.rekeyed`). Only in the
last two cases its pool lists other keys than before, and else the call was idle: it failed, or
found its key as it should be (`Call.idle_iff_sameKeys`). So the level of the pool is set back to 0
just if its keys change, and everything but the pool's table and level stays (`pace_of_key_call`).
-/

namespace IndexPools

namespace Engine

/-- The pool lists the same keys in both engines. -/
def SameKeys (e e' : Engine) (pool : PoolId) : Prop :=
  ∀ key, key ∈ (e'.snapshot pool).used ↔ key ∈ (e.snapshot pool).used

variable {e e' : Engine} {pool q : PoolId} {r : Request}

theorem sameKeys_refl (e : Engine) (pool : PoolId) : e.SameKeys e pool := fun _ => Iff.rfl

theorem not_sameKeys_put {t : SlotTable} {start i : Nat} {a : Allocation}
    (hlive : e.pools.live[pool]? = some t) (habsent : t.Absent a.key)
    (hvacant : t.vacancy start = some i) : ¬ e.SameKeys (e.retable pool (t.put i a)) pool :=
  fun h => not_mem_used_of_absent hlive habsent ((h a.key).1 (mem_used_put hlive hvacant))

theorem not_sameKeys_vacate {t : SlotTable} {i : Nat} {a : Allocation} (hs : e.Sound)
    (hlive : e.pools.live[pool]? = some t) (hheld : t.holder? i = some a) :
    ¬ e.SameKeys (e.retable pool (t.vacate i)) pool :=
  fun h => not_mem_used_vacate hs hlive hheld ((h a.key).2 (mem_used_of_held hlive hheld))

namespace Rekeyed

theorem eq_of_sameKeys (h : Rekeyed e pool e') (hs : e.Sound) (hsame : e.SameKeys e' pool) :
    e' = e := by
  cases h with
  | kept => rfl
  | placed hlive habsent hvacant => exact absurd hsame (not_sameKeys_put hlive habsent hvacant)
  | freed hlive hheld => exact absurd hsame (not_sameKeys_vacate hs hlive hheld)

theorem level_of_not_sameKeys (h : Rekeyed e pool e') (hs : e.Sound)
    (hchanged : ¬ e.SameKeys e' pool) : e'.paceLevel pool = ⟨0⟩ := by
  cases h with
  | kept => exact absurd (e.sameKeys_refl pool) hchanged
  | placed hlive | freed hlive => exact paceLevel_retable hs hlive

theorem retired_eq (h : Rekeyed e pool e') : e'.pools.retired = e.pools.retired := by
  cases h <;> rfl

end Rekeyed

/-- The registration fails, or its key is held already. -/
def PlacesNothing (e : Engine) (r : Request) : Prop :=
  (∃ err, (e.register r).1 = .error err) ∨ ∃ key ∈ (e.snapshot r.pool).used, r.key = .ok key

/-- The release fails, or its key is not held. -/
def ReleasesNothing (e : Engine) (r : Request) : Prop :=
  (∃ err, (e.deregister r).1 = .error err) ∨
    ∃ key, key ∉ (e.snapshot r.pool).used ∧ r.key = .ok key

theorem placesNothing_iff (hs : e.Sound) :
    e.PlacesNothing r ↔ e.SameKeys (e.register r).2 r.pool := by
  have hcases := register_cases hs r
  unfold PlacesNothing
  generalize e.register r = res at hcases ⊢
  cases hcases with
  | refused err => exact iff_of_true (.inl ⟨err, rfl⟩) (e.sameKeys_refl _)
  | kept haccept hlive hheld hkey =>
    refine iff_of_true (.inr ⟨_, ?_, key_of_accept haccept⟩) (e.sameKeys_refl _)
    exact hkey ▸ mem_used_of_held hlive hheld
  | placed haccept hlive habsent hvacant =>
    refine iff_of_false ?_ (not_sameKeys_put hlive habsent hvacant)
    rintro (⟨err, herr⟩ | ⟨key, hused, hkey⟩)
    · cases herr
    · cases hkey.symm.trans (key_of_accept haccept)
      exact not_mem_used_of_absent hlive habsent hused

theorem releasesNothing_iff (hs : e.Sound) :
    e.ReleasesNothing r ↔ e.SameKeys (e.deregister r).2 r.pool := by
  have hcases := deregister_cases hs r
  unfold ReleasesNothing
  generalize e.deregister r = res at hcases ⊢
  cases hcases with
  | refused err => exact iff_of_true (.inl ⟨err, rfl⟩) (e.sameKeys_refl _)
  | idle haccept hlive habsent =>
    refine iff_of_true (.inr ⟨_, ?_, key_of_accept haccept⟩) (e.sameKeys_refl _)
    exact not_mem_used_of_absent hlive habsent
  | freed haccept hlive hheld hkey =>
    refine iff_of_false ?_ (not_sameKeys_vacate hs hlive hheld)
    rintro (⟨err, herr⟩ | ⟨key, hunused, hkey'⟩)
    · cases herr
    · cases hkey'.symm.trans (key_of_accept haccept)
      exact hunused (hkey ▸ mem_used_of_held hlive hheld)

end Engine

/-- Calls that fail or find nothing to change, and those that only move a pool's pace on. -/
def Call.Idle (e : Engine) : Call → Prop
  | .initPool pool capacity strategy => ∃ err, (e.initPool pool capacity strategy).1 = .error err
  | .initDeclared pool => ∃ err, (e.initDeclared pool).1 = .error err
  | .register r => e.PlacesNothing r
  | .allocate pool owner key tags => e.PlacesNothing (.forKey pool owner key tags)
  | .deregister r => e.ReleasesNothing r
  | .release pool owner key tags => e.ReleasesNothing (.forKey pool owner key tags)
  | .incrementPace _ | .nextDelay _ _ => True
  | .deletePool _ | .resetPace _ | .reconcileRegister _ | .reconcileRegistry _ _ => False

theorem Call.idle_iff_sameKeys {e : Engine} {pool : PoolId} {c : Call} (hs : e.Sound)
    (hc : c.keyPool? = some pool) : c.Idle e ↔ e.SameKeys (c.apply e) pool := by
  cases c with
  | register | allocate =>
    cases hc
    exact Engine.placesNothing_iff hs
  | deregister | release =>
    cases hc
    exact Engine.releasesNothing_iff hs
  | _ => cases hc

/-- A call on the keys of a pool sets its level back to 0 if it changes which keys the pool lists,
and else leaves the whole engine as it is, which it does just if it fails, asks for a key that is
held already, or releases one that is not. No other pool changes, no retired table, and nothing in
the store. -/
theorem pace_of_key_call {policy : PacePolicy} {store : Store} {cap : UInt32}
    {conflicts : ConflictPolicy} {past : List (System × Event)} {s : System}
    (run : Run policy (fun _ _ => True) (.start store cap conflicts) past s)
    {calls : List (Engine × Call)} {e : Engine} (since : Trace s.engine calls e) {c : Call}
    {pool : PoolId} (hc : c.keyPool? = some pool) :
    (¬ e.SameKeys (c.apply e) pool → (c.apply e).paceLevel pool = ⟨0⟩) ∧
      (e.SameKeys (c.apply e) pool → c.apply e = e) ∧
      (c.Idle e ↔ e.SameKeys (c.apply e) pool) ∧
      (∀ q, q ≠ pool → e.SameAt (c.apply e) q) ∧
      (c.apply e).pools.retired = e.pools.retired ∧ (c.apply e).store = e.store := by
  have hs : e.Sound := since.sound (run.sound (Engine.sound_start store cap conflicts))
  have hrekeyed := Call.rekeyed hs hc
  exact ⟨hrekeyed.level_of_not_sameKeys hs, hrekeyed.eq_of_sameKeys hs,
    Call.idle_iff_sameKeys hs hc, fun q hq => hrekeyed.sameAt hq.symm,
    hrekeyed.retired_eq, (hrekeyed.moved hs).store_eq⟩

/-- The pool has "a" and is at level 2. A second key sets it back, and so does the release of "a";
another holder that asks for "a", a third key and the release of a missing one do not. The other
pool stays at level 1. -/
theorem pace_of_key_call_full :
    ∃ (ids vlans : PoolId) (past : List (System × Event)) (s : System),
      Run .standard (fun _ _ => True) (.start .empty 3 .reject) past s ∧
        s.engine.paceLevel ids = ⟨2⟩ ∧ s.engine.paceLevel vlans = ⟨1⟩ ∧
        ((Call.register (.forKey ids "y" "b" none)).apply s.engine).paceLevel ids = ⟨0⟩ ∧
        ((Call.release ids "x" "a" none).apply s.engine).paceLevel ids = ⟨0⟩ ∧
        ((Call.release ids "x" "a" none).apply s.engine).paceLevel vlans = ⟨1⟩ ∧
        (Call.allocate ids "y" "a" none).apply s.engine = s.engine ∧
        (Call.deregister (.forKey ids "x" "c" none)).apply s.engine = s.engine ∧
        (Call.allocate vlans "y" "c" none).apply s.engine = s.engine := by
  let ids : PoolId := ⟨"net", "ids", rfl, rfl⟩
  let vlans : PoolId := ⟨"net", "vlans", rfl, rfl⟩
  let events : List Event :=
    [.call (.nextDelay vlans .standard), .call (.incrementPace ids),
      .call (.nextDelay ids .standard), .call (.allocate vlans "x" "d" none),
      .call (.allocate ids "x" "a" none), .call (.initPool vlans 1 .firstAvailable),
      .call (.initPool ids 2 .firstAvailable), .declare (.registry vlans (.ofSize 1)),
      .declare (.registry ids (.ofSize 2))]
  let s : System := (System.start .empty 3 .reject).after .standard events
  have hrun : Run .standard (fun _ _ => True) (.start .empty 3 .reject) _ s :=
    run_after events fun _ _ => trivial
  have hvlans : s.engine.paceLevel vlans = ⟨1⟩ := by decide +kernel
  have hidle : ∀ {c : Call} {pool : PoolId}, c.keyPool? = some pool → c.Idle s.engine →
      c.apply s.engine = s.engine := by
    intro c pool hc hidle
    obtain ⟨-, hkept, hsame, -⟩ := pace_of_key_call hrun .start hc
    exact hkept (hsame.1 hidle)
  obtain ⟨hplaced, -⟩ := pace_of_key_call hrun .start
    (rfl : (Call.register (.forKey ids "y" "b" none)).keyPool? = some ids)
  obtain ⟨hfreed, -, -, hother, -⟩ := pace_of_key_call hrun .start
    (rfl : (Call.release ids "x" "a" none).keyPool? = some ids)
  refine ⟨ids, vlans, _, s, hrun, by decide +kernel, hvlans, hplaced fun h => ?_,
    hfreed fun h => ?_, ?_, hidle rfl ?_, hidle rfl ?_, hidle rfl ?_⟩
  · exact absurd ((h "b").1 (by decide +kernel)) (by decide +kernel)
  · exact absurd ((h "a").2 (by decide +kernel)) (by decide +kernel)
  · exact (hother vlans (by decide)).paceLevel_eq.trans hvlans
  · exact .inl ⟨.ownershipConflict ids "a" "x", by decide +kernel⟩
  · exact .inr ⟨"c", by decide +kernel, by decide +kernel⟩
  · exact .inl ⟨.poolExhausted vlans 1, by decide +kernel⟩

end IndexPools
