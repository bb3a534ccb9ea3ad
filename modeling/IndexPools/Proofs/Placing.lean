import IndexPools.Engine.Placement
import IndexPools.Proofs.Lookup

/-!
# Keys placed and released through handles

A handle that was just fetched is fresh, so that to act through it is to act on the pool
(`PoolDirectory.onFresh_of_handle?`). A table that places no key, and one that releases none, is as
it was (`SlotTable.insert_unchanged`, `SlotTable.delete_unchanged`), and to put it back in its place
changes nothing. So a request that changes no key leaves the engine as it is
(`Engine.register_eq`, `Engine.deregister_eq`), and so does one whose pool was deleted after the
handle was fetched (`Engine.place_of_stale`).
-/

namespace IndexPools

namespace SlotTable

variable {hash : String → UInt64} {t t' : SlotTable} {key : String}

theorem insert_unchanged {owner : String} {tags : Option Tags} {res : Except AllocError Placement}
    (h : t.insert hash key owner tags = (res, t')) (hold : ∀ i, res ≠ .ok ⟨i, .inserted⟩) :
    t' = t := by
  unfold insert at h
  rcases hprobe : t.probe hash key with ⟨i, a⟩ | i | _ <;> simp only [hprobe] at h
  · split_ifs at h <;> exact (congrArg Prod.snd h).symm
  · exact absurd (congrArg Prod.fst h).symm (hold i)
  · exact (congrArg Prod.snd h).symm

theorem delete_unchanged (h : t.delete hash key = (none, t')) : t' = t := by
  unfold delete at h
  rcases hprobe : t.probe hash key with ⟨i, a⟩ | i | _ <;> simp only [hprobe] at h
  · cases h
  · exact (congrArg Prod.snd h).symm
  · exact (congrArg Prod.snd h).symm

end SlotTable

namespace PoolDirectory

variable {α : Type} {d d' : PoolDirectory} {h : Handle} {pool : PoolId} {f : SlotTable → α × SlotTable}
  {x : α}

theorem isStale_iff : d.isStale h = true ↔ h.lifetime < (d.retiredOf h.pool).length := by
  unfold isStale
  exact decide_eq_true_iff

/-- A live pool is fetched under its own name and the number of its retired tables. -/
theorem handle?_eq (d : PoolDirectory) (pool : PoolId) :
    d.handle? pool = d.live[pool]?.map fun _ => ⟨pool, (d.retiredOf pool).length⟩ := by
  unfold handle?
  rcases hlive : d.live[pool]? with _ | t
  · rw [if_neg fun hmem => (mem_iff_lookup.1 hmem).elim (by simp [hlive])]
    rfl
  · rw [if_pos (mem_iff_lookup.2 ⟨t, hlive⟩)]
    rfl

theorem handle?_eq_some : d.handle? pool = some h ↔
    h = ⟨pool, (d.retiredOf pool).length⟩ ∧ ∃ t, d.live[pool]? = some t := by
  rw [handle?_eq, Option.map_eq_some_iff, exists_and_right, and_comm, eq_comm]

theorem handle?_eq_none : d.handle? pool = none ↔ d.live[pool]? = none := by
  rw [handle?_eq, Option.map_eq_none_iff]

/-- A handle that is fetched now is not stale, and reads the pool's table. -/
theorem fresh_of_handle? (hh : d.handle? pool = some h) :
    h.pool = pool ∧ d.isStale h = false ∧ d.table? h = d.live[pool]? := by
  obtain ⟨rfl, -⟩ := handle?_eq_some.1 hh
  have hfresh : d.isStale ⟨pool, (d.retiredOf pool).length⟩ = false := by simp [isStale]
  refine ⟨rfl, hfresh, ?_⟩
  unfold table?
  rw [hfresh, if_neg Bool.false_ne_true]

theorem onFresh_of_handle? (hh : d.handle? pool = some h) (f : SlotTable → α × SlotTable) :
    d.onFresh h f = d.onPool pool f := by
  obtain ⟨rfl, hfresh, -⟩ := fresh_of_handle? hh
  unfold onFresh onHandle
  rw [hfresh, if_neg Bool.false_ne_true, if_neg Bool.false_ne_true]

theorem eq_of_onPool (h : d.onPool pool f = some (x, d')) (hsame : ∀ t t', f t = (x, t') → t' = t) :
    d' = d := by
  unfold onPool at h
  rcases hlive : d.live[pool]? with _ | t
  · rw [hlive] at h
    cases h
  · rw [hlive] at h
    cases h
    rw [hsame t _ rfl, insert_of_lookup hlive]

end PoolDirectory

namespace Engine

/-- A request that places no key leaves everything as it is. -/
theorem register_eq (e : Engine) (r : Request) : e.register r =
    match e.accept r with
    | .error err => (.error err, e)
    | .ok key =>
      match e.pools.onPool r.pool fun t => t.insert keyDigest key r.owner r.tags with
      | none => (.error (.poolNotFound r.pool), e)
      | some (.error err, _) => (.error (.ofAlloc r.pool err), e)
      | some (.ok placement, pools) =>
        match placement.outcome, e.conflicts with
        | .inserted, _ => (.ok placement.index, { e with pools, pacer := e.pacer.reset r.pool })
        | .existing, _ => (.ok placement.index, e)
        | .conflict _ _, .keepExisting => (.ok placement.index, e)
        | .conflict owner _, .reject => (.error (.ownershipConflict r.pool key owner), e) := by
  unfold register
  rcases e.accept r with err | key
  · rfl
  · dsimp only
    rcases hh : e.pools.handle? r.pool with _ | h
    · simp only [PoolDirectory.onPool, PoolDirectory.handle?_eq_none.1 hh]
    · simp only [place, PoolDirectory.onFresh_of_handle? hh]
      rcases honPool : e.pools.onPool r.pool fun t => t.insert keyDigest key r.owner r.tags with
        _ | ⟨res, pools⟩
      · rfl
      · have hsame : (∀ i, res ≠ .ok ⟨i, .inserted⟩) → pools = e.pools := fun hold =>
          PoolDirectory.eq_of_onPool honPool fun t t' h => SlotTable.insert_unchanged h hold
        rcases res with err | ⟨i, _ | _ | ⟨owner, tags⟩⟩
        · rw [hsame (by simp)]
        · rfl
        · rw [hsame (by simp)]
        · obtain rfl := hsame (by simp)
          obtain ⟨store, pools, pacer, conflicts⟩ := e
          cases conflicts <;> rfl

/-- A request that releases no key leaves everything as it is. -/
theorem deregister_eq (e : Engine) (r : Request) : e.deregister r =
    match e.accept r with
    | .error err => (.error err, e)
    | .ok key =>
      match e.pools.onPool r.pool fun t => t.delete keyDigest key with
      | none => (.error (.poolNotFound r.pool), e)
      | some (none, _) => (.ok (), e)
      | some (some _, pools) => (.ok (), { e with pools, pacer := e.pacer.reset r.pool }) := by
  unfold deregister
  rcases e.accept r with err | key
  · rfl
  · dsimp only
    rcases hh : e.pools.handle? r.pool with _ | h
    · simp only [PoolDirectory.onPool, PoolDirectory.handle?_eq_none.1 hh]
    · simp only [unplace, PoolDirectory.onFresh_of_handle? hh]
      rcases honPool : e.pools.onPool r.pool fun t => t.delete keyDigest key with
        _ | ⟨_ | a, pools⟩
      · rfl
      · rw [PoolDirectory.eq_of_onPool honPool fun t t' h => SlotTable.delete_unchanged h]
      · rfl

/-- Once the pool of a fetched handle is deleted, nothing is placed or released through it. -/
theorem place_of_stale {e : Engine} {h : Handle} (hstale : e.pools.isStale h = true) (r : Request)
    (key : String) : e.place h r key = (.error (.poolNotFound r.pool), e) ∧
      e.unplace h r key = (.error (.poolNotFound r.pool), e) := by
  unfold place unplace PoolDirectory.onFresh
  simp only [if_pos hstale, and_self]

end Engine

end IndexPools
