import IndexPools.Proofs.Standing

/-!
# Pace levels as counts

The level of a pool can be read off the calls of the pacer. It is inactive unless the pool is
tracked (`Pacer.Tracked`), and else counts the calls that advanced it, up to the cap, since the call
that began to track the pool or reset it last (`Pacer.Since`). There is such a call for every pool
that is tracked (`Tracked.exists_since`), and any other call moves the level of a pool as it moves
the count (`exists_move`, `Since.level`). The two ways to advance a level come to the same, and
neither ever wraps around (`level_of_history`).
-/

namespace IndexPools

/-- A call of one of the pacer's operations. -/
inductive PaceCall where
  | track (pool : PoolId)
  | forget (pool : PoolId)
  | reset (pool : PoolId)
  | increment (pool : PoolId)
  | nextDelay (pool : PoolId) (policy : PacePolicy)
  | level (pool : PoolId)
deriving DecidableEq

namespace PaceCall

def pool : PaceCall → PoolId
  | .track pool | .forget pool | .reset pool | .increment pool | .nextDelay pool _ | .level pool =>
    pool

def apply (p : Pacer) : PaceCall → Pacer
  | .track pool => p.track pool
  | .forget pool => p.forget pool
  | .reset pool => p.reset pool
  | .increment pool => p.increment pool
  | .nextDelay pool policy => (p.nextDelay pool policy).2
  | .level _ => p

/-- The call advances the level of the pool, if it is tracked. -/
def advances (pool : PoolId) : PaceCall → Bool
  | .increment q | .nextDelay q _ => q = pool
  | _ => false

end PaceCall

/-- The delay at level `v` under the cap `m`. -/
def PacePolicy.delayAt (policy : PacePolicy) (m v : Nat) : Millis :=
  if m ≤ v then policy.interval
  else if v = 0 then policy.veryShortWait
  else if v = 1 ∨ v = 2 then policy.shortWait
  else policy.interval

namespace Pacer

/-- The highest level that is reached under a cap: the one below the inactive level stands in for a
cap above it. -/
def top (cap : UInt32) : Nat := min cap.toNat (UInt32.size - 2)

/-- The pacer after calls, which are listed the last first. -/
def after (cap : UInt32) : (calls : List PaceCall) → Pacer
  | [] => .withCap cap
  | c :: calls => c.apply (after cap calls)

/-- The pool was tracked, and not forgotten since. -/
def Tracked (pool : PoolId) (calls : List PaceCall) : Prop :=
  ∃ since before, calls = since ++ .track pool :: before ∧ ∀ c ∈ since, c ≠ .forget pool

/-- The calls since the pool's level was 0 for the last time, by the call that began to track the
pool or by a reset. -/
inductive Since (pool : PoolId) : (calls since : List PaceCall) → Prop
  | begun {since before : List PaceCall} (hnew : ¬ Tracked pool before)
      (hlast : ∀ c ∈ since, c ≠ .forget pool ∧ c ≠ .reset pool) :
      Since pool (since ++ .track pool :: before) since
  | reset {since before : List PaceCall} (htracked : Tracked pool before)
      (hlast : ∀ c ∈ since, c ≠ .forget pool ∧ c ≠ .reset pool) :
      Since pool (since ++ .reset pool :: before) since

section History

variable {pool : PoolId} {c : PaceCall} {calls since : List PaceCall}

theorem not_tracked_nil : ¬ Tracked pool [] := by
  rintro ⟨since, before, h, -⟩
  simp at h

theorem tracked_cons :
    Tracked pool (c :: calls) ↔ c = .track pool ∨ (c ≠ .forget pool ∧ Tracked pool calls) := by
  constructor
  · rintro ⟨since, before, h, hkept⟩
    rcases since with _ | ⟨c', since⟩
    · cases h
      exact .inl rfl
    · cases h
      obtain ⟨hne, hkept⟩ := List.forall_mem_cons.1 hkept
      exact .inr ⟨hne, since, before, rfl, hkept⟩
  · rintro (rfl | ⟨hne, since, before, rfl, hkept⟩)
    · exact ⟨[], calls, rfl, List.forall_mem_nil _⟩
    · exact ⟨c :: since, before, rfl, List.forall_mem_cons.2 ⟨hne, hkept⟩⟩

instance decidableTracked (pool : PoolId) : ∀ calls, Decidable (Tracked pool calls)
  | [] => .isFalse not_tracked_nil
  | c :: calls =>
    have := decidableTracked pool calls
    decidable_of_iff (c = .track pool ∨ (c ≠ .forget pool ∧ Tracked pool calls)) tracked_cons.symm

theorem Since.tracked (h : Since pool calls since) : Tracked pool calls := by
  cases h with
  | begun hnew hlast => exact ⟨since, _, rfl, fun c hc => (hlast c hc).1⟩
  | reset htracked hlast =>
    obtain ⟨since', before, rfl, hkept⟩ := htracked
    refine ⟨since ++ .reset pool :: since', before, by simp, fun c hc => ?_⟩
    rcases List.mem_append.1 hc with hc | hc
    · exact (hlast c hc).1
    · rcases List.mem_cons.1 hc with rfl | hc
      · exact PaceCall.noConfusion
      · exact hkept c hc

theorem Since.cons (h : Since pool calls since) (hc : c ≠ .forget pool ∧ c ≠ .reset pool) :
    Since pool (c :: calls) (c :: since) := by
  cases h with
  | begun hnew hlast => exact .begun hnew (List.forall_mem_cons.2 ⟨hc, hlast⟩)
  | reset htracked hlast => exact .reset htracked (List.forall_mem_cons.2 ⟨hc, hlast⟩)

theorem Since.of_cons (h : Since pool (c :: calls) since) :
    (c = .track pool ∧ ¬ Tracked pool calls ∧ since = []) ∨
      (c = .reset pool ∧ Tracked pool calls ∧ since = []) ∨
      ((c ≠ .forget pool ∧ c ≠ .reset pool) ∧
        ∃ since', since = c :: since' ∧ Since pool calls since') := by
  generalize hcalls : c :: calls = calls' at h
  cases h with
  | begun hnew hlast =>
    rcases since with _ | ⟨c', since⟩
    · cases hcalls
      exact .inl ⟨rfl, hnew, rfl⟩
    · cases hcalls
      obtain ⟨hc, hlast⟩ := List.forall_mem_cons.1 hlast
      exact .inr (.inr ⟨hc, since, rfl, .begun hnew hlast⟩)
  | reset htracked hlast =>
    rcases since with _ | ⟨c', since⟩
    · cases hcalls
      exact .inr (.inl ⟨rfl, htracked, rfl⟩)
    · cases hcalls
      obtain ⟨hc, hlast⟩ := List.forall_mem_cons.1 hlast
      exact .inr (.inr ⟨hc, since, rfl, .reset htracked hlast⟩)

theorem Tracked.exists_since : ∀ {calls : List PaceCall}, Tracked pool calls →
    ∃ since, Since pool calls since
  | [], h => absurd h not_tracked_nil
  | c :: calls, h => by
    by_cases htracked : Tracked pool calls
    · by_cases hreset : c = .reset pool
      · exact ⟨[], hreset ▸ .reset htracked (List.forall_mem_nil _)⟩
      · obtain ⟨since, hsince⟩ := htracked.exists_since
        refine ⟨c :: since, hsince.cons ⟨?_, hreset⟩⟩
        rcases tracked_cons.1 h with rfl | ⟨hforget, -⟩
        · exact PaceCall.noConfusion
        · exact hforget
    · rcases tracked_cons.1 h with rfl | ⟨-, htracked'⟩
      · exact ⟨[], .begun htracked (List.forall_mem_nil _)⟩
      · exact absurd htracked' htracked

end History

section Levels

variable {p : Pacer} {pool : PoolId} {c : PaceCall} {calls since : List PaceCall}
  {policy : PacePolicy} {l : UInt32} {m v : Nat}

theorem toNat_cap (cap : UInt32) : (withCap cap).cap.toNat = top cap := by
  have hinactive : PaceLevel.inactive.value.toNat = UInt32.size - 1 := rfl
  have hbelow : (PaceLevel.inactive.value - 1).toNat = UInt32.size - 2 := rfl
  unfold withCap top
  split_ifs with h
  · rw [UInt32.lt_iff_toNat_lt, hinactive] at h
    simp only
    omega
  · rw [UInt32.lt_iff_toNat_lt, hinactive] at h
    simp only [hbelow]
    omega

theorem top_lt (cap : UInt32) : top cap < UInt32.size - 1 :=
  Nat.lt_of_le_of_lt (Nat.min_le_right _ _) (by decide)

theorem cap_after (cap : UInt32) : ∀ calls : List PaceCall,
    (after cap calls).cap = (withCap cap).cap
  | [] => rfl
  | c :: calls => by
    rw [after, ← cap_after cap calls]
    cases c <;> simp [PaceCall.apply, forget]

theorem toNat_cap_after (cap : UInt32) (calls : List PaceCall) :
    (after cap calls).cap.toNat = top cap := by
  rw [cap_after, toNat_cap]

theorem lt_inactive (h : l.toNat < UInt32.size - 1) : l < PaceLevel.inactive.value :=
  UInt32.lt_iff_toNat_lt.2 h

/-- A level that is added to and then cut to the cap counts one more up to the cap. -/
theorem toNat_incremented (hcap : p.cap.toNat = m) (hm : m < UInt32.size - 1)
    (hl : l.toNat = min m v) :
    (if l + 1 < p.cap then l + 1 else p.cap).toNat = min m (v + 1) := by
  have hadd := toNat_add_one (lt_inactive (l := l) (by omega))
  split_ifs with hlt
  · rw [UInt32.lt_iff_toNat_lt] at hlt
    omega
  · rw [UInt32.lt_iff_toNat_lt] at hlt
    omega

/-- A level that is added to only below the cap counts one more up to the cap. -/
theorem toNat_delayed (hcap : p.cap.toNat = m) (hm : m < UInt32.size - 1)
    (hl : l.toNat = min m v) : (if l < p.cap then l + 1 else l).toNat = min m (v + 1) := by
  have hadd := toNat_add_one (lt_inactive (l := l) (by omega))
  split_ifs with hlt
  · rw [UInt32.lt_iff_toNat_lt] at hlt
    omega
  · rw [UInt32.lt_iff_toNat_lt] at hlt
    omega

/-- A call has no effect on the levels of other pools. -/
theorem levels_apply_of_ne (p : Pacer) (hq : c.pool ≠ pool) :
    (c.apply p).levels[pool]? = p.levels[pool]? := by
  cases c with
  | track => exact (levels_track _ _ _).trans (if_neg hq)
  | forget => exact (levels_forget _ _ _).trans (if_neg hq)
  | reset => exact (levels_reset _ _ _).trans (if_neg hq)
  | increment => exact (levels_increment _ _ _).trans (if_neg hq)
  | nextDelay => exact (levels_nextDelay _ _ _ _).trans (if_neg hq)
  | level => rfl

theorem advances_of_ne (hq : c.pool ≠ pool) : c.advances pool = false := by
  cases c with
  | increment | nextDelay => exact decide_eq_false hq
  | track | forget | reset | level => rfl

/-- A call that neither begins nor ends the tracking of a pool nor resets it moves the pool's level
as it moves the count of the calls that advance it. -/
theorem exists_move (hcap : p.cap.toNat = m) (hm : m < UInt32.size - 1) (htrack : c ≠ .track pool)
    (hc : c ≠ .forget pool ∧ c ≠ .reset pool) :
    ∃ f : UInt32 → UInt32, (c.apply p).levels[pool]? = p.levels[pool]?.map f ∧
      ∀ l v, l.toNat = min m v →
        (f l).toNat = min m (v + if c.advances pool then 1 else 0) := by
  by_cases hq : c.pool = pool
  · cases c with
    | track q => exact absurd (congrArg PaceCall.track hq) htrack
    | forget q => exact absurd (congrArg PaceCall.forget hq) hc.1
    | reset q => exact absurd (congrArg PaceCall.reset hq) hc.2
    | increment q =>
      obtain rfl : q = pool := hq
      refine ⟨_, (levels_increment _ _ _).trans (if_pos rfl), fun l v hl => ?_⟩
      rw [show (PaceCall.increment q).advances q = true from decide_eq_true rfl, if_pos rfl]
      exact toNat_incremented hcap hm hl
    | nextDelay q policy =>
      obtain rfl : q = pool := hq
      refine ⟨_, (levels_nextDelay _ _ _ _).trans (if_pos rfl), fun l v hl => ?_⟩
      rw [show (PaceCall.nextDelay q policy).advances q = true from decide_eq_true rfl, if_pos rfl]
      exact toNat_delayed hcap hm hl
    | level q => exact ⟨id, Option.map_id'.symm, fun _ _ hl => hl⟩
  · refine ⟨id, (levels_apply_of_ne p hq).trans Option.map_id'.symm, fun _ _ hl => ?_⟩
    rw [advances_of_ne hq]
    exact hl

theorem levels_of_not_tracked (cap : UInt32) : ∀ {calls : List PaceCall}, ¬ Tracked pool calls →
    (after cap calls).levels[pool]? = none
  | [], _ => by simp [after, withCap]
  | c :: calls, h => by
    rw [tracked_cons, not_or, not_and] at h
    obtain ⟨htrack, hforget⟩ := h
    by_cases hc : c = .forget pool
    · subst hc
      exact (levels_forget _ _ _).trans (if_pos rfl)
    · have ih := levels_of_not_tracked cap (hforget hc)
      by_cases hreset : c = .reset pool
      · subst hreset
        refine (levels_reset _ _ _).trans ((if_pos rfl).trans ?_)
        rw [ih]
        rfl
      · obtain ⟨f, hf, -⟩ := exists_move (toNat_cap_after cap calls) (top_lt cap) htrack
          ⟨hc, hreset⟩
        rw [after, hf, ih]
        rfl

/-- The level counts the calls that advanced it since it was 0, up to the cap. -/
theorem Since.level (cap : UInt32) : ∀ {calls since : List PaceCall}, Since pool calls since →
    ∃ l, (after cap calls).levels[pool]? = some l ∧
      l.toNat = min (top cap) (since.countP (PaceCall.advances pool))
  | [], _, h => absurd h.tracked not_tracked_nil
  | c :: calls, since, h => by
    rcases h.of_cons with ⟨rfl, hnew, rfl⟩ | ⟨rfl, htracked, rfl⟩ | ⟨hc, since, rfl, hsince⟩
    · refine ⟨0, (levels_track _ _ _).trans ((if_pos rfl).trans ?_), (Nat.min_zero _).symm⟩
      rw [levels_of_not_tracked cap hnew]
      rfl
    · obtain ⟨since, hsince⟩ := htracked.exists_since
      obtain ⟨l, hl, -⟩ := hsince.level cap
      refine ⟨0, (levels_reset _ _ _).trans ((if_pos rfl).trans ?_), (Nat.min_zero _).symm⟩
      rw [hl]
      rfl
    · obtain ⟨l, hl, hcount⟩ := hsince.level cap
      by_cases htrack : c = .track pool
      · -- a pool that is tracked already keeps its level
        subst htrack
        refine ⟨l, (levels_track _ _ _).trans ((if_pos rfl).trans ?_), hcount⟩
        rw [hl]
        rfl
      · obtain ⟨f, hf, hmoves⟩ := exists_move (toNat_cap_after cap calls) (top_lt cap) htrack hc
        refine ⟨f l, ?_, ?_⟩
        · rw [after, hf, hl]
          rfl
        · rw [List.countP_cons]
          exact hmoves l _ hcount

/-- Every level that a pacer comes to is at most the cap. -/
theorem le_top_of_level {cap : UInt32} (h : (after cap calls).levels[pool]? = some l) :
    l.toNat ≤ top cap := by
  by_cases htracked : Tracked pool calls
  · obtain ⟨since, hsince⟩ := htracked.exists_since
    obtain ⟨l', hl', hcount⟩ := hsince.level cap
    cases h.symm.trans hl'
    exact hcount ▸ Nat.min_le_left _ _
  · cases h.symm.trans (levels_of_not_tracked cap htracked)

theorem delay_of_none (h : p.levels[pool]? = none) :
    (p.nextDelay pool policy).1 = policy.interval := by
  unfold nextDelay
  rw [h]

theorem delay_of_some (hcap : p.cap.toNat = m) (h : p.levels[pool]? = some l) :
    (p.nextDelay pool policy).1 = policy.delayAt m l.toNat := by
  have hzero : l = 0 ↔ l.toNat = 0 := UInt32.toNat_inj.symm
  have hone : l = 1 ↔ l.toNat = 1 := UInt32.toNat_inj.symm
  have htwo : l = 2 ↔ l.toNat = 2 := UInt32.toNat_inj.symm
  unfold nextDelay PacePolicy.delayAt PacePolicy.delayFor
  simp only [h, UInt32.lt_iff_toNat_lt, hcap, hzero, hone, htwo, ← Nat.not_lt, ite_not]
  split_ifs <;> rfl

/-- Asking for a delay advances the pacer as an increment does. -/
theorem increment_eq_nextDelay (cap : UInt32) (calls : List PaceCall) (pool : PoolId)
    (policy : PacePolicy) : (after cap calls).increment pool =
      ((after cap calls).nextDelay pool policy).2 := by
  have hlevels : ((after cap calls).increment pool).levels =
      ((after cap calls).nextDelay pool policy).2.levels := by
    refine Std.ExtTreeMap.ext_getElem? fun q => ?_
    rw [levels_increment, levels_nextDelay]
    split_ifs
    · refine Option.map_congr fun l hl => UInt32.toNat_inj.1 ?_
      have hle := le_top_of_level hl
      rw [toNat_incremented (toNat_cap_after cap calls) (top_lt cap) (v := l.toNat) (by omega),
        toNat_delayed (toNat_cap_after cap calls) (top_lt cap) (v := l.toNat) (by omega)]
    · rfl
  have hcap : ((after cap calls).increment pool).cap =
      ((after cap calls).nextDelay pool policy).2.cap := by
    rw [cap_increment, cap_nextDelay]
  exact congrArg₂ Pacer.mk hcap hlevels

end Levels

end Pacer

/-- The level of a pool that is not tracked is inactive, and the level of one that is counts the
calls that advanced it since it was 0 for the last time, up to the cap, which keeps it below the
inactive level. The delay goes by that count, no level wraps around when it is added to, and asking
for a delay advances the pacer as an increment does. -/
theorem level_of_history (cap : UInt32) (calls : List PaceCall) (pool : PoolId)
    (policy : PacePolicy) :
    (¬ Pacer.Tracked pool calls → (Pacer.after cap calls).level pool = .inactive ∧
        ((Pacer.after cap calls).nextDelay pool policy).1 = policy.interval) ∧
      (Pacer.Tracked pool calls → ∃ since, Pacer.Since pool calls since) ∧
      (∀ since, Pacer.Since pool calls since →
        ((Pacer.after cap calls).level pool).value.toNat =
            min (Pacer.top cap) (since.countP (PaceCall.advances pool)) ∧
          (Pacer.after cap calls).level pool ≠ .inactive ∧
          ((Pacer.after cap calls).nextDelay pool policy).1 = policy.delayAt (Pacer.top cap)
            (min (Pacer.top cap) (since.countP (PaceCall.advances pool)))) ∧
      (∀ l, (Pacer.after cap calls).levels[pool]? = some l → (l + 1).toNat = l.toNat + 1) ∧
      (Pacer.after cap calls).increment pool =
        ((Pacer.after cap calls).nextDelay pool policy).2 := by
  refine ⟨fun htracked => ?_, Pacer.Tracked.exists_since, fun since hsince => ?_, fun l hl => ?_,
    Pacer.increment_eq_nextDelay cap calls pool policy⟩
  · have hnone := Pacer.levels_of_not_tracked cap htracked
    exact ⟨Pacer.level_of_none hnone, Pacer.delay_of_none hnone⟩
  · obtain ⟨l, hl, hcount⟩ := hsince.level cap
    refine ⟨?_, ?_, ?_⟩
    · rw [Pacer.level_of_some hl, hcount]
    · rw [Pacer.level_of_some hl]
      intro hinactive
      have htop := Pacer.top_lt cap
      have hvalue : l.toNat = UInt32.size - 1 := congrArg (fun x => x.value.toNat) hinactive
      omega
    · rw [Pacer.delay_of_some (Pacer.toNat_cap_after cap calls) hl, hcount]
  · exact Pacer.toNat_add_one
      (Pacer.lt_inactive (Nat.lt_of_le_of_lt (Pacer.le_top_of_level hl) (Pacer.top_lt cap)))

/-- Since its reset the level of the pool was advanced in both ways, and not by the second track. It
is 2, or 1 if that is the cap, where the delay is the normal one. The other pool was forgotten, and
its increment after that has no effect. -/
theorem level_of_history_reset :
    ∃ (ids vlans : PoolId) (calls since : List PaceCall),
      Pacer.Since ids calls since ∧ ¬ Pacer.Tracked vlans calls ∧
        ((Pacer.after 4294967295 calls).level ids).value.toNat = 2 ∧
        ((Pacer.after 4294967295 calls).nextDelay ids .standard).1 = 5000 ∧
        ((Pacer.after 1 calls).level ids).value.toNat = 1 ∧
        ((Pacer.after 1 calls).nextDelay ids .standard).1 = 60000 ∧
        (Pacer.after 1 calls).level vlans = .inactive := by
  let ids : PoolId := ⟨"net", "ids", rfl, rfl⟩
  let vlans : PoolId := ⟨"net", "vlans", rfl, rfl⟩
  let since : List PaceCall :=
    [.increment vlans, .forget vlans, .nextDelay ids .standard, .track ids, .increment ids]
  let before : List PaceCall :=
    [.increment ids, .track vlans, .track ids, .forget ids, .increment ids, .track ids]
  have hsince : Pacer.Since ids (since ++ .reset ids :: before) since :=
    .reset (by decide) (by decide)
  have hforgotten : ¬ Pacer.Tracked vlans (since ++ .reset ids :: before) := by decide
  obtain ⟨-, -, hcounts, -⟩ :=
    level_of_history 4294967295 (since ++ .reset ids :: before) ids .standard
  obtain ⟨hlevel, -, hdelay⟩ := hcounts since hsince
  obtain ⟨-, -, hcounts', -⟩ := level_of_history 1 (since ++ .reset ids :: before) ids .standard
  obtain ⟨hlevel', -, hdelay'⟩ := hcounts' since hsince
  obtain ⟨hinactive, -⟩ := level_of_history 1 (since ++ .reset ids :: before) vlans .standard
  exact ⟨ids, vlans, _, since, hsince, hforgotten, hlevel.trans (by decide),
    hdelay.trans (by decide), hlevel'.trans (by decide), hdelay'.trans (by decide),
    (hinactive hforgotten).1⟩

end IndexPools
