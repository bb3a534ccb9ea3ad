import IndexPools.Proofs.History

/-!
# Requests that are issued again

A request finds what the same request left: a key that was placed is held under the owner and the
tags that ask for it again (`register_again`), and a key that was released is missing, also when its
slot was the last one and all slots were cleared with it (`deregister_again`). What was refused
changed nothing, and is refused again. So however often a request is issued in a row, each answer is
the first one, and what is left is what the first left (`answers_of_retries`).
-/

namespace IndexPools

/-- The answers to an operation that is issued `n` times in a row, and what it leaves. -/
def issue {σ α : Type} (op : σ → α × σ) : (n : Nat) → σ → List α × σ
  | 0, s => ([], s)
  | n + 1, s =>
    let r := op s
    let rest := issue op n r.2
    (r.1 :: rest.1, rest.2)

theorem issue_of_again {σ α : Type} {op : σ → α × σ} : ∀ (n : Nat) {s : σ},
    op (op s).2 = op s → issue op (n + 1) s = (List.replicate (n + 1) (op s).1, (op s).2)
  | 0, _, _ => rfl
  | n + 1, s, h => by
    have hrest : issue op (n + 1) (op s).2 = (List.replicate (n + 1) (op s).1, (op s).2) := by
      rw [issue_of_again n (h.symm ▸ h), h]
    rw [issue, hrest]
    rfl

namespace Engine

variable {e : Engine}

theorem register_again (hs : e.Sound) (r : Request) :
    (e.register r).2.register r = e.register r := by
  have hcases := register_cases hs r
  generalize hfirst : e.register r = res at hcases ⊢
  cases hcases with
  | refused | kept => exact hfirst
  | @placed key t i haccept hlive habsent hvacant =>
    let a : Allocation := ⟨key, r.owner, r.tags⟩
    have hs' : (e.retable r.pool (t.put i a)).Sound :=
      hs.retable hlive ((hs.tables hlive).put habsent hvacant)
    have hheld : (t.put i a).holder? i = some a :=
      (SlotTable.holder?_put (SlotTable.lt_of_vacancy hvacant).1 a i).trans (if_pos rfl)
    have haccept' : (e.retable r.pool (t.put i a)).accept r = .ok a.key := haccept
    rw [register_of_held hs' haccept' live_retable_self hheld, if_neg fun h => h.2 ⟨rfl, rfl⟩]

theorem deregister_again (hs : e.Sound) (r : Request) :
    (e.deregister r).2.deregister r = e.deregister r := by
  have hcases := deregister_cases hs r
  generalize hfirst : e.deregister r = res at hcases ⊢
  cases hcases with
  | refused | idle => exact hfirst
  | @freed key t i a haccept hlive hheld hkey =>
    have ht := hs.tables hlive
    have hs' : (e.retable r.pool (t.vacate i)).Sound := hs.retable hlive (ht.vacate hheld)
    exact deregister_of_absent hs' haccept live_retable_self
      (hkey ▸ SlotTable.absent_vacate ht hheld)

end Engine

/-- A request that is issued twice in a row is answered the same both times, and the second time
changes nothing: no table, no level and nothing in the store. Nor does any further time. -/
theorem answers_of_retries {policy : PacePolicy} {store : Store} {cap : UInt32}
    {conflicts : ConflictPolicy} {past : List (System × Event)} {s : System}
    (run : Run policy (fun _ _ => True) (.start store cap conflicts) past s)
    {calls : List (Engine × Call)} {e : Engine} (since : Trace s.engine calls e) (r : Request) :
    (e.register r).2.register r = e.register r ∧
      (e.deregister r).2.deregister r = e.deregister r ∧
      ∀ n, issue (fun e' => e'.register r) (n + 1) e =
          (List.replicate (n + 1) (e.register r).1, (e.register r).2) ∧
        issue (fun e' => e'.deregister r) (n + 1) e =
          (List.replicate (n + 1) (e.deregister r).1, (e.deregister r).2) := by
  have hs : e.Sound := since.sound (run.sound (Engine.sound_start store cap conflicts))
  have hregister := Engine.register_again hs r
  have hderegister := Engine.deregister_again hs r
  exact ⟨hregister, hderegister, fun n => ⟨issue_of_again n hregister,
    issue_of_again n hderegister⟩⟩

/-- The slot before the one key of the pool was released. A new key takes it, and is found there
again and again; another holder of the key is refused twice; and the key is released once more after
its first release cleared the table. -/
theorem answers_of_retries_released :
    ∃ (ids : PoolId) (past : List (System × Event)) (s : System),
      Run .standard (fun _ _ => True) (.start .empty 3 .reject) past s ∧
        s.engine.pools.live[ids]? =
          some ⟨#[.released, .held ⟨"b", "x", none⟩, .unused], 1, .firstAvailable⟩ ∧
        issue (fun e => e.register (.forKey ids "z" "c" none)) 3 s.engine =
          ([.ok 0, .ok 0, .ok 0], (s.engine.register (.forKey ids "z" "c" none)).2) ∧
        ((s.engine.register (.forKey ids "y" "b" none)).2.register (.forKey ids "y" "b" none)).1 =
          .error (.ownershipConflict ids "b" "x") ∧
        (s.engine.deregister (.forKey ids "x" "b" none)).2.pools.live[ids]? =
          some ⟨#[.unused, .unused, .unused], 0, .firstAvailable⟩ ∧
        (s.engine.deregister (.forKey ids "x" "b" none)).2.deregister (.forKey ids "x" "b" none) =
          s.engine.deregister (.forKey ids "x" "b" none) := by
  let ids : PoolId := ⟨"net", "ids", rfl, rfl⟩
  let events : List Event :=
    [.call (.release ids "x" "a" none), .call (.allocate ids "x" "b" none),
      .call (.allocate ids "x" "a" none), .call (.initPool ids 3 .firstAvailable),
      .declare (.registry ids (.ofSize 3))]
  let s : System := (System.start .empty 3 .reject).after .standard events
  have hrun : Run .standard (fun _ _ => True) (.start .empty 3 .reject) _ s :=
    run_after events fun _ _ => trivial
  have hplaced : (s.engine.register (.forKey ids "z" "c" none)).1 = .ok 0 := by decide +kernel
  have hissue := ((answers_of_retries hrun .start (.forKey ids "z" "c" none)).2.2 2).1
  obtain ⟨hrefused, -⟩ := answers_of_retries hrun .start (.forKey ids "y" "b" none)
  obtain ⟨-, hreleased, -⟩ := answers_of_retries hrun .start (.forKey ids "x" "b" none)
  rw [hplaced] at hissue
  refine ⟨ids, _, s, hrun, by decide +kernel, hissue, ?_, by decide +kernel, hreleased⟩
  rw [hrefused]
  decide +kernel

end IndexPools
