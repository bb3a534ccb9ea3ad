import IndexPools.Proofs.Holding
import IndexPools.Proofs.Run

/-!
# Undercut registers

Two registers that name different keys of one pool can come to have one index
(`same_index_after_release`), since a key is released whoever asks: when a register that is marked
for deletion is released, the others that name its key keep the index in their records, and the slot
is free for the next key. Such a register is undercut until a visit of its own places its key again
(`Undercut`). There is no other way to it: a register that stays and has an index holds its key at
that index, or is undercut (`truthful_or_undercut`), and a slot is held by one key at a time
(`undercut_of_same_index`).
-/

namespace IndexPools

namespace Engine

/-- The pool holds the register's key at the register's index. -/
def Truthful (e : Engine) (r : RegisterRecord) : Prop :=
  ∃ pool i a, r.pool = .ok pool ∧ r.index = some i ∧ e.Holds pool i a ∧ r.named? = some a.key

/-- The store has the register, and its pool does not hold its key at its index. -/
def Stale (e : Engine) (r : RegisterRecord) : Prop :=
  e.store.registers[r.key]? = some r ∧ ¬ e.Truthful r

/-- A register that was marked for deletion and named the key of `r` for the same pool was released
between `e` and `e'`, while `r` was in the store and to stay. -/
def ReleasedFrom (e e' : Engine) (r : RegisterRecord) : Prop :=
  (∃ r₀, e.store.registers[r.key]? = some r₀ ∧ r₀.deleting = false) ∧
    ∃ d : RegisterRecord, e.store.registers[d.key]? = some d ∧ d.deleting = true ∧
      d.pool = r.pool ∧ d.named? = r.named? ∧ e'.store.registers[d.key]? = none

variable {e e' : Engine} {r : RegisterRecord}

theorem Truthful.of_holds (h : e.Truthful r)
    (hsub : ∀ pool i a, e.Holds pool i a → e'.Holds pool i a) : e'.Truthful r := by
  obtain ⟨pool, i, a, hpool, hindex, hheld, hname⟩ := h
  exact ⟨pool, i, a, hpool, hindex, hsub pool i a hheld, hname⟩

/-- The visit of one register leaves another truthful, or releases its key. -/
theorem RegisterVisit.truthful {r' : RegisterRecord}
    {res : Except ReconcileError RegisterOutcome × Engine} (h : RegisterVisit e r' res)
    (hs : e.Sound) (hstored : e.store.registers[r'.key]? = some r') (ht : e.Truthful r) :
    res.2.Truthful r ∨ (r'.deleting = true ∧ r'.pool = r.pool ∧ r'.named? = r.named? ∧
      res.2.store.registers[r'.key]? = none) := by
  obtain ⟨pool, i, a, hpool, hindex, ha, hname⟩ := ht
  by_cases ha' : res.2.Holds pool i a
  · exact .inl ⟨pool, i, a, hpool, hindex, ha', hname⟩
  · obtain ⟨hleaves, hpool', haccept⟩ := (h.holds hs ha).resolve_left ha'
    refine .inr ⟨hleaves, hpool'.trans hpool.symm, (named_of_accept haccept).trans hname.symm, ?_⟩
    -- the key was released, so that the visit got as far as the record
    cases h with
    | failed => exact absurd ha ha'
    | kept _ hstays | placed _ hstays =>
      rw [hleaves] at hstays
      cases hstays
    | idle => exact discard_self hstored
    | freed => exact discard_self (e := e.retable _ _) hstored

/-- A register that its own visit leaves in the store is truthful then, unless the visit failed. -/
theorem RegisterVisit.truthful_self {r' : RegisterRecord}
    {res : Except ReconcileError RegisterOutcome × Engine} (h : RegisterVisit e r' res)
    (hstored : e.store.registers[r'.key]? = some r')
    (hr : res.2.store.registers[r'.key]? = some r) :
    (∃ err, res = (.error err, e)) ∨ res.2.Truthful r := by
  have hsettle : ∀ {i : Nat} {pool : PoolId} {a : Allocation},
      some { r' with index := some i } = some r → r'.pool = .ok pool → res.2.Holds pool i a →
        r'.named? = some a.key → res.2.Truthful r := by
    intro i pool a hri hpool hheld hname
    cases Option.some.inj hri
    exact ⟨pool, i, a, hpool, rfl, hheld, hname⟩
  cases h with
  | failed err => exact .inl ⟨err, rfl⟩
  | kept hpool _ haccept hlive hheld hkey =>
    refine .inr (hsettle ((settle_self hstored _).symm.trans hr) hpool
      (holds_settle.2 ⟨_, hlive, hheld⟩) ?_)
    rw [hkey]
    exact named_of_accept haccept
  | placed hpool _ haccept hlive _ hvacant =>
    exact .inr (hsettle ((settle_self (e := e.retable _ _) hstored _).symm.trans hr) hpool
      (holds_settle.2 ((holds_put hlive hvacant).2 (.inl ⟨rfl, rfl, rfl⟩)))
      (named_of_accept haccept))
  | idle => cases (discard_self hstored).symm.trans hr
  | freed => cases (discard_self (e := e.retable _ _) hstored).symm.trans hr

/-- A register that a pass leaves stale was stale before, or its key was released in the pass. -/
theorem Visits.stale_or_released {policy : PacePolicy} (h : Visits policy e e') (hs : e.Sound)
    (hstays : r.deleting = false) (hstale : e'.Stale r) :
    e.Stale r ∨ e.ReleasedFrom e' r := by
  induction h with
  | start => exact .inl hstale
  | @register e' r' before hread hstored ih =>
    have hs' := before.sound hs
    have hv := registerVisit_cases hs' r'
    obtain ⟨hr, hnot⟩ := hstale
    by_cases hk : r.key = r'.key
    · -- its own visit failed, since it is stale after it
      rw [hk] at hr
      rcases hv.truthful_self hstored hr with ⟨err, heq⟩ | ht
      · rw [heq] at hr hnot ⊢
        exact ih ⟨hk ▸ hr, hnot⟩
      · exact absurd ht hnot
    · rw [hv.of_ne hk] at hr
      by_cases ht : e'.Truthful r
      · rcases hv.truthful hs' hstored ht with ht' | ⟨hleaves, hpool, hname, hgone⟩
        · exact absurd ht' hnot
        · obtain ⟨r₀, hr₀, heq⟩ := before.register_eq hs hr
          exact .inr ⟨⟨r₀, hr₀, by rw [heq] at hstays; exact hstays⟩,
            r', hread, hleaves, hpool, hname, hgone⟩
      · rcases ih ⟨hr, ht⟩ with hbefore | ⟨hthere, d, hd, hleaves, hpool, hname, hgone⟩
        · exact .inl hbefore
        · -- a register that is gone cannot come back in the pass
          refine .inr ⟨hthere, d, hd, hleaves, hpool, hname, ?_⟩
          rw [hv.of_ne, hgone]
          intro hdk
          rw [hdk, hstored] at hgone
          cases hgone
  | @registry e' before pool ih =>
    have hs' := before.sound hs
    have hv := registryVisit_cases hs' policy pool
    obtain ⟨hr, hnot⟩ := hstale
    rw [hv.registers_eq] at hr
    have ht : ¬ e'.Truthful r := fun ht => hnot (ht.of_holds fun _ _ _ => (hv.holds_iff hs').2)
    rcases ih ⟨hr, ht⟩ with hbefore | ⟨hthere, d, hd, hleaves, hpool, hname, hgone⟩
    · exact .inl hbefore
    · exact .inr ⟨hthere, d, hd, hleaves, hpool, hname, by rw [hv.registers_eq, hgone]⟩

end Engine

/-- A fresh declaration adds no register that stays and has an index. -/
theorem Declaration.Fresh.register_was {d : Declaration} {s : Store} (hfresh : d.Fresh s)
    {k : RegisterKey} {r : RegisterRecord} (hr : (d.apply s).registers[k]? = some r)
    (hstays : r.deleting = false) (hindex : r.index ≠ none) : s.registers[k]? = some r := by
  rcases register_cases hr with hr' | ⟨rfl, -⟩ | ⟨r', -, rfl⟩
  · exact hr'
  · exact absurd hfresh.2 hindex
  · cases hstays

/-- In a pass of the run the key of `r` was released for another register, and since then its pool
has not held it at the index of `r`. -/
inductive Undercut (policy : PacePolicy) (r : RegisterRecord) :
    (past : List (System × Event)) → System → Prop
  | released {past : List (System × Event)} {s : System} {now : Millis}
      (hreleased : s.engine.ReleasedFrom (s.step policy (.pass now)).engine r)
      (hstale : (s.step policy (.pass now)).engine.Stale r) :
      Undercut policy r ((s, .pass now) :: past) (s.step policy (.pass now))
  | since {past : List (System × Event)} {s : System} {event : Event}
      (before : Undercut policy r past s) (hstale : (s.step policy event).engine.Stale r) :
      Undercut policy r ((s, event) :: past) (s.step policy event)

section

variable {policy : PacePolicy} {cap : UInt32} {conflicts : ConflictPolicy}
  {past : List (System × Event)} {s : System}

theorem truthful_or_undercut (run : Run policy Declaring (.start .empty cap conflicts) past s)
    {r : RegisterRecord} (hr : s.engine.store.registers[r.key]? = some r)
    (hstays : r.deleting = false) (hindex : r.index ≠ none) :
    s.engine.Truthful r ∨ Undercut policy r past s := by
  induction run generalizing r with
  | start => simp [System.start, Engine.start, Store.empty] at hr
  | @step past s before event hadmits ih =>
    have hsound := before.sound (Engine.sound_start .empty cap conflicts)
    have hkeyed := before.keyed (Engine.sound_start .empty cap conflicts) Store.keyed_empty
    by_cases ht : (s.step policy event).engine.Truthful r
    · exact .inl ht
    refine .inr ?_
    have hstale : (s.step policy event).engine.Stale r := ⟨hr, ht⟩
    have hsince : s.engine.Stale r → Undercut policy r ((s, event) :: past) _ := fun hbefore =>
      .since ((ih hbefore.1 hstays hindex).resolve_left hbefore.2) hstale
    cases event with
    | declare d => exact hsince ⟨hadmits.register_was hr hstays hindex, ht⟩
    | correct c => exact hadmits.elim
    | call c => exact hadmits.elim
    | pass now =>
      have hvisits := Engine.visits_pass hsound hkeyed policy s.schedule now
      rcases hvisits.stale_or_released hsound hstays hstale with hbefore | hreleased
      · exact hsince hbefore
      · exact .released hreleased hstale

/-- If two registers stay, name different keys of one pool and have one index, one is undercut. -/
theorem undercut_of_same_index (run : Run policy Declaring (.start .empty cap conflicts) past s)
    {r₁ r₂ : RegisterRecord} (h₁ : r₁ ∈ s.engine.store.registerList)
    (h₂ : r₂ ∈ s.engine.store.registerList) {pool : PoolId} (hpool₁ : r₁.pool = .ok pool)
    (hpool₂ : r₂.pool = .ok pool) (hstays₁ : r₁.deleting = false) (hstays₂ : r₂.deleting = false)
    {key₁ key₂ : String} (hname₁ : r₁.named? = some key₁) (hname₂ : r₂.named? = some key₂)
    (hne : key₁ ≠ key₂) {i : Nat} (hindex₁ : r₁.index = some i) (hindex₂ : r₂.index = some i) :
    Undercut policy r₁ past s ∨ Undercut policy r₂ past s := by
  have hkeyed := run.keyed (Engine.sound_start .empty cap conflicts) Store.keyed_empty
  have hstored : ∀ {r : RegisterRecord}, r ∈ s.engine.store.registerList →
      s.engine.store.registers[r.key]? = some r := by
    intro r hr
    obtain ⟨k, hk⟩ := mem_values.1 hr
    rwa [hkeyed k r hk]
  rcases truthful_or_undercut run (hstored h₁) hstays₁ (by simp [hindex₁]) with ht₁ | hu
  · rcases truthful_or_undercut run (hstored h₂) hstays₂ (by simp [hindex₂]) with ht₂ | hu
    · obtain ⟨p₁, i₁, a₁, hp₁, hi₁, hheld₁, hn₁⟩ := ht₁
      obtain ⟨p₂, i₂, a₂, hp₂, hi₂, hheld₂, hn₂⟩ := ht₂
      cases hpool₁.symm.trans hp₁
      cases hpool₂.symm.trans hp₂
      cases hindex₁.symm.trans hi₁
      cases hindex₂.symm.trans hi₂
      -- both allocations are at slot `i` of the pool's table
      rw [hheld₁.unique hheld₂] at hn₁
      exact absurd (Option.some.inj (hname₁.symm.trans (hn₁.trans (hn₂.symm.trans hname₂)))) hne
    · exact .inr hu
  · exact .inl hu

end

/-- The event declares a register that is marked for deletion already. -/
def Event.declaresDeleting : Event → Bool
  | .declare (.register r) => r.deleting
  | _ => false

namespace Clash

def pool : PoolId := .netIds

def register (name key : String) (index : Option Nat) : RegisterRecord :=
  ⟨⟨"net", name⟩, "ids", some ((∅ : Selector).insert "name" key), none, false, index⟩

/-- The registers "a" and "b" name one key, and "c" another; "b" is released between the visits of
"a" and "c". -/
def events : List Event :=
  [.pass 2, .declare (.register (register "c" "other" none)),
    .declare (.registerDeleting ⟨"net", "b"⟩), .pass 1,
    .declare (.register (register "b" "shared" none)),
    .declare (.register (register "a" "shared" none)), .pass 0,
    .declare (.registry pool ⟨some 2, some .firstAvailable, none, none⟩)]

theorem named_register (name key : String) (index : Option Nat) :
    (register name key index).named? = some key :=
  (lookup_insert _ _ _ _).trans (if_pos rfl)

def start : System := .start .empty 3 .keepExisting

theorem mem_registerList :
    register "a" "shared" (some 0) ∈ (start.after .standard events).engine.store.registerList ∧
      register "c" "other" (some 0) ∈
        (start.after .standard events).engine.store.registerList := by
  decide +kernel

end Clash

/-- The slot that "a" lost is the slot of "c". -/
theorem undercut_of_shared_key :
    ∃ (past : List (System × Event)) (s : System),
      Run .standard Declaring (.start .empty 3 .keepExisting) past s ∧
        Clash.register "a" "shared" (some 0) ∈ s.engine.store.registerList ∧
        Clash.register "c" "other" (some 0) ∈ s.engine.store.registerList ∧
        (Undercut .standard (Clash.register "a" "shared" (some 0)) past s ∨
          Undercut .standard (Clash.register "c" "other" (some 0)) past s) := by
  have hrun : Run .standard Declaring (.start .empty 3 .keepExisting) _ _ :=
    run_after Clash.events (by decide +kernel)
  obtain ⟨ha, hc⟩ := Clash.mem_registerList
  exact ⟨_, _, hrun, ha, hc, undercut_of_same_index hrun ha hc rfl rfl rfl rfl
    (Clash.named_register _ _ _) (Clash.named_register _ _ _) (by decide) rfl rfl⟩

theorem same_index_after_release :
    ¬ ∀ (policy : PacePolicy) (cap : UInt32) (conflicts : ConflictPolicy)
      (past : List (System × Event)) (s₀ s : System) (now : Millis),
      Run policy (fun s event => Declaring s event ∧ event.declaresDeleting = false)
        (.start .empty cap conflicts) ((s₀, .pass now) :: past) s →
      ∀ r₁ ∈ s.engine.store.registerList, ∀ r₂ ∈ s.engine.store.registerList,
      ∀ (pool : PoolId) (key₁ key₂ : String), r₁.pool = .ok pool → r₂.pool = .ok pool →
        r₁.deleting = false → r₂.deleting = false → r₁.named? = some key₁ →
        r₂.named? = some key₂ → key₁ ≠ key₂ → ∀ i, r₁.index = some i → r₂.index ≠ some i := by
  intro h
  have hrun : Run .standard (fun s event => Declaring s event ∧ event.declaresDeleting = false)
      (.start .empty 3 .keepExisting) _ _ := run_after Clash.events (by decide +kernel)
  obtain ⟨ha, hc⟩ := Clash.mem_registerList
  exact h .standard 3 .keepExisting _ _ _ 2 hrun _ ha _ hc Clash.pool _ _ rfl
    rfl rfl rfl (Clash.named_register _ _ _) (Clash.named_register _ _ _) (by decide) 0 rfl rfl

end IndexPools
