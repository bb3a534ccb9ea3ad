import IndexPools.Proofs.Alike

/-!
# Isolated pools

What is done to other pools does not show in what one pool answers, nor in what becomes of it
(`isolated_pools`). An action on another pool leaves the engine alike for this one
(`Action.alike_apply`), and an action on the pool itself is answered the same by engines that are
alike (`Action.agree`). So of two engines of which one performs all actions, and the other those on
the pool only, neither tells which it is (`replies_own`). The records that are declared or
reconciled have to keep to the pools of their keys (`Action.Keeps`).
-/

namespace IndexPools

/-- The pool that a declaration concerns. -/
def Declaration.pool? (home : RegisterKey → Option PoolId) : Declaration → Option PoolId
  | .registry id _ => some id
  | .setReady id _ => some id
  | .registryDeleting id => some id
  | .register r => r.pool.toOption
  | .registerDeleting key => home key

def Correction.pool? (home : RegisterKey → Option PoolId) : Correction → Option PoolId
  | .setStatus id _ => some id
  | .removeRegistry id => some id
  | .setIndex key _ => home key
  | .removeRegister key => home key

def Call.pool? : Call → Option PoolId
  | .initPool pool _ _ => some pool
  | .initDeclared pool => some pool
  | .deletePool pool => some pool
  | .register r => some r.pool
  | .deregister r => some r.pool
  | .allocate pool _ _ _ => some pool
  | .release pool _ _ _ => some pool
  | .resetPace pool => some pool
  | .incrementPace pool => some pool
  | .nextDelay pool _ => some pool
  | .reconcileRegister r => r.pool.toOption
  | .reconcileRegistry _ pool => some pool

/-- What comes of a declaration: the store after it, or a fault where what it marks is missing. -/
def Declaration.outcome (s : Store) : Declaration → Except StoreError Store
  | .registry id spec => .ok (s.declareRegistry id spec)
  | .setReady id ready => s.setReady id ready
  | .registryDeleting id => s.markRegistryDeleting id
  | .register r => .ok (s.declareRegister r)
  | .registerDeleting key => s.markRegisterDeleting key

def Correction.outcome (s : Store) : Correction → Except StoreError Store
  | .setStatus id status => s.setStatus id status
  | .removeRegistry id => s.removeRegistry id
  | .setIndex key index => s.setIndex key index
  | .removeRegister key => s.removeRegister key

/-- A question about a pool, which changes nothing. -/
inductive Question where
  | snapshot (pool : PoolId)
  | status (pool : PoolId)
  | paceLevel (pool : PoolId)

inductive Answer where
  | done
  | stored (answer : Except StoreError Unit)
  | setUp (answer : Except RequestError Bool)
  | deleted (answer : Bool)
  | index (answer : Except RequestError Nat)
  | released (answer : Except RequestError Unit)
  | delay (answer : Millis)
  | register (answer : Except ReconcileError RegisterOutcome)
  | registry (answer : Except ReconcileError RegistryOutcome)
  | keys (answer : Snapshot)
  | status (answer : RegistryStatus)
  | level (answer : PaceLevel)
deriving DecidableEq

def Question.pool : Question → PoolId
  | .snapshot pool => pool
  | .status pool => pool
  | .paceLevel pool => pool

def Question.answer (e : Engine) : Question → Answer
  | .snapshot pool => .keys (e.snapshot pool)
  | .status pool => .status (e.status pool)
  | .paceLevel pool => .level (e.paceLevel pool)

def Call.answer (e : Engine) : Call → Answer
  | .initPool pool capacity strategy => .setUp (e.initPool pool capacity strategy).1
  | .initDeclared pool => .setUp (e.initDeclared pool).1
  | .deletePool pool => .deleted (e.deletePool pool).1
  | .register r => .index (e.register r).1
  | .deregister r => .released (e.deregister r).1
  | .allocate pool owner key tags => .index (e.allocate pool owner key tags).1
  | .release pool owner key tags => .released (e.release pool owner key tags).1
  | .resetPace _ => .done
  | .incrementPace _ => .done
  | .nextDelay pool policy => .delay (e.nextDelay pool policy).1
  | .reconcileRegister r => .register (e.reconcileRegister r).1
  | .reconcileRegistry policy pool => .registry (e.reconcileRegistry policy pool).1

inductive Action where
  | declare (d : Declaration)
  | correct (c : Correction)
  | call (c : Call)
  | ask (question : Question)

namespace Action

def pool? (home : RegisterKey → Option PoolId) : Action → Option PoolId
  | .declare d => d.pool? home
  | .correct c => c.pool? home
  | .call c => c.pool?
  | .ask question => some question.pool

def apply (e : Engine) : Action → Engine
  | .declare d => { e with store := d.apply e.store }
  | .correct c => { e with store := c.apply e.store }
  | .call c => c.apply e
  | .ask _ => e

def answer (e : Engine) : Action → Answer
  | .declare d => .stored ((d.outcome e.store).map fun _ => ())
  | .correct c => .stored ((c.outcome e.store).map fun _ => ())
  | .call c => c.answer e
  | .ask question => question.answer e

/-- The record that is declared or reconciled. -/
def record? : Action → Option RegisterRecord
  | .declare (.register r) => some r
  | .call (.reconcileRegister r) => some r
  | _ => none

/-- The record refers to the pool where its key belongs. -/
def Keeps (home : RegisterKey → Option PoolId) (a : Action) : Prop :=
  ∀ r ∈ a.record?, r.pool.toOption = home r.key

instance (home : RegisterKey → Option PoolId) : DecidablePred (Keeps home) := fun a =>
  inferInstanceAs (Decidable (∀ r ∈ a.record?, r.pool.toOption = home r.key))

/-- The actions that concern the pool, in order. -/
def own (home : RegisterKey → Option PoolId) (q : PoolId) (actions : List Action) : List Action :=
  actions.filter fun a => a.pool? home = some q

end Action

namespace Engine

def perform (e : Engine) : List Action → Engine
  | [] => e
  | a :: actions => (a.apply e).perform actions

/-- The actions, each with its answer. -/
def replies (e : Engine) : List Action → List (Action × Answer)
  | [] => []
  | a :: actions => (a, a.answer e) :: (a.apply e).replies actions

end Engine

section

variable {home : RegisterKey → Option PoolId} {q : PoolId} {s s' : Store} {e e' : Engine}

theorem Declaration.apply_eq (d : Declaration) (s : Store) :
    d.apply s = s.orSame (d.outcome s) := by
  cases d <;> rfl

theorem Correction.apply_eq (c : Correction) (s : Store) :
    c.apply s = s.orSame (c.outcome s) := by
  cases c <;> rfl

theorem Declaration.matched {d : Declaration} (hkeeps : (Action.declare d).Keeps home)
    (hd : d.pool? home = some q) (h : s.Alike home q s') :
    Store.Matched home q (d.outcome s) (d.outcome s') := by
  cases d with
  | registry id spec =>
    obtain rfl := Option.some.inj hd
    exact .changed (h.declareRegistry spec)
  | setReady id ready =>
    obtain rfl := Option.some.inj hd
    exact h.changeRegistry _
  | registryDeleting id =>
    obtain rfl := Option.some.inj hd
    exact h.changeRegistry _
  | register r => exact .changed (h.declareRegister r)
  | registerDeleting key => exact h.changeRegister hd _

theorem Declaration.alike_apply {d : Declaration} (hkeeps : (Action.declare d).Keeps home)
    (hd : d.pool? home ≠ some q) : s.Alike home q (d.apply s) := by
  cases d with
  | registry id spec => exact Store.alike_declareRegistry (mt (congrArg some) hd) spec
  | setReady id ready => exact Store.alike_changeRegistry (mt (congrArg some) hd) _
  | registryDeleting id => exact Store.alike_changeRegistry (mt (congrArg some) hd) _
  | register r => exact Store.alike_declareRegister (hkeeps r rfl ▸ hd)
  | registerDeleting key => exact Store.alike_changeRegister hd _

theorem Correction.matched {c : Correction} (hc : c.pool? home = some q)
    (h : s.Alike home q s') : Store.Matched home q (c.outcome s) (c.outcome s') := by
  cases c with
  | setStatus id status =>
    obtain rfl := Option.some.inj hc
    exact h.changeRegistry _
  | removeRegistry id =>
    obtain rfl := Option.some.inj hc
    exact h.removeRegistry
  | setIndex key index => exact h.changeRegister hc _
  | removeRegister key => exact h.removeRegister hc

theorem Correction.alike_apply {c : Correction} (hc : c.pool? home ≠ some q) :
    s.Alike home q (c.apply s) := by
  cases c with
  | setStatus id status => exact Store.alike_changeRegistry (mt (congrArg some) hc) _
  | removeRegistry id => exact Store.alike_removeRegistry (mt (congrArg some) hc)
  | setIndex key index => exact Store.alike_changeRegister hc _
  | removeRegister key => exact Store.alike_removeRegister hc

theorem Call.sameAt (hs : e.Sound) {c : Call} (hc : c.pool? ≠ some q) :
    e.SameAt (c.apply e) q := by
  cases c with
  | initPool pool capacity strategy =>
    exact Engine.sameAt_initPool hs (mt (congrArg some) hc) capacity strategy
  | initDeclared pool => exact Engine.sameAt_initDeclared hs (mt (congrArg some) hc)
  | deletePool pool => exact Engine.sameAt_deletePool (mt (congrArg some) hc)
  | register | deregister | allocate | release =>
    exact (Call.rekeyed hs rfl).sameAt (mt (congrArg some) hc)
  | resetPace pool =>
    exact ⟨rfl, rfl, (Pacer.levels_reset _ _ _).trans (if_neg (mt (congrArg some) hc))⟩
  | incrementPace pool =>
    exact ⟨rfl, rfl, (Pacer.levels_increment _ _ _).trans (if_neg (mt (congrArg some) hc))⟩
  | nextDelay pool policy => exact Engine.sameAt_nextDelay (mt (congrArg some) hc) policy
  | reconcileRegister r =>
    exact (Engine.registerVisit_cases hs r).sameAt hs (mt RegisterRecord.toOption_pool.2 hc)
  | reconcileRegistry policy pool =>
    exact (Engine.registryVisit_cases hs policy pool).sameAt (mt (congrArg some) hc)

/-- A call writes no register but the one that it reconciles. -/
theorem Call.registers_apply (hs : e.Sound) {c : Call} {k : RegisterKey}
    (hk : ∀ r, c = .reconcileRegister r → k ≠ r.key) :
    (c.apply e).store.registers[k]? = e.store.registers[k]? := by
  rcases c.store_cases hs with hstore | ⟨r, rfl⟩ | ⟨policy, pool, rfl⟩
  · rw [hstore]
  · exact (Engine.registerVisit_cases hs r).of_ne (hk r rfl)
  · exact congrArg (·[k]?) (Engine.registryVisit_cases hs policy pool).registers_eq

/-- An action on another pool leaves the engine alike. -/
theorem Action.alike_apply (hs : e.Sound) {a : Action} (hkeeps : a.Keeps home)
    (ha : a.pool? home ≠ some q) : e.Alike home q (a.apply e) := by
  cases a with
  | declare d => exact (Engine.Alike.refl e).restore (Declaration.alike_apply hkeeps ha)
  | correct c => exact (Engine.Alike.refl e).restore (Correction.alike_apply ha)
  | call c =>
    obtain ⟨hrecord, htable, hlevel⟩ := Call.sameAt hs ha
    refine ⟨⟨hrecord, fun k hk => Call.registers_apply hs ?_⟩, htable, hlevel, c.cap_eq hs,
      c.conflicts_eq hs⟩
    rintro r rfl rfl
    exact ha ((hkeeps r rfl).trans hk)
  | ask question => exact .refl e

theorem Engine.Agree.wrap {α : Type} {x x' : α × Engine} (h : Engine.Agree home q x x')
    (f : α → Answer) : Engine.Agree home q (f x.1, x.2) (f x'.1, x'.2) :=
  ⟨congrArg f h.answer, h.engine⟩

theorem Call.agree {c : Call} (hkeeps : (Action.call c).Keeps home) (hc : c.pool? = some q)
    (h : e.Alike home q e') :
    Engine.Agree home q (c.answer e, c.apply e) (c.answer e', c.apply e') := by
  cases c with
  | initPool pool capacity strategy =>
    obtain rfl := Option.some.inj hc
    exact (h.initPool capacity strategy).wrap .setUp
  | initDeclared pool =>
    obtain rfl := Option.some.inj hc
    exact h.initDeclared.wrap .setUp
  | deletePool pool =>
    obtain rfl := Option.some.inj hc
    exact h.deletePool.wrap .deleted
  | register r => exact (h.register (Option.some.inj hc)).wrap .index
  | deregister r => exact (h.deregister (Option.some.inj hc)).wrap .released
  | allocate pool owner key tags =>
    have hpool : (Request.forKey pool owner key tags).pool = q := Option.some.inj hc
    exact (h.register hpool).wrap .index
  | release pool owner key tags =>
    have hpool : (Request.forKey pool owner key tags).pool = q := Option.some.inj hc
    exact (h.deregister hpool).wrap .released
  | resetPace pool =>
    obtain rfl := Option.some.inj hc
    exact ⟨rfl, h.resetPace⟩
  | incrementPace pool =>
    obtain rfl := Option.some.inj hc
    exact ⟨rfl, h.incrementPace⟩
  | nextDelay pool policy =>
    obtain rfl := Option.some.inj hc
    exact (h.nextDelay policy).wrap .delay
  | reconcileRegister r =>
    have hkey : home r.key = some q := (hkeeps r rfl).symm.trans hc
    exact (h.reconcileRegister (RegisterRecord.toOption_pool.1 hc) hkey).wrap .register
  | reconcileRegistry policy pool =>
    obtain rfl := Option.some.inj hc
    exact (h.reconcileRegistry policy).wrap .registry

theorem Question.answer_eq {question : Question} (h : e.Alike home question.pool e') :
    question.answer e' = question.answer e := by
  cases question with
  | snapshot pool => exact congrArg Answer.keys h.snapshot
  | status pool => exact congrArg Answer.status h.status
  | paceLevel pool => exact congrArg Answer.level h.paceLevel

/-- An action on the pool is answered the same by engines that are alike. -/
theorem Action.agree {a : Action} (hkeeps : a.Keeps home) (ha : a.pool? home = some q)
    (h : e.Alike home q e') :
    Engine.Agree home q (a.answer e, a.apply e) (a.answer e', a.apply e') := by
  cases a with
  | declare d =>
    have hmatched := Declaration.matched hkeeps ha h.store
    simp only [apply, Declaration.apply_eq]
    exact ⟨congrArg Answer.stored hmatched.answer, h.restore (hmatched.orSame h.store)⟩
  | correct c =>
    have hmatched := Correction.matched ha h.store
    simp only [apply, Correction.apply_eq]
    exact ⟨congrArg Answer.stored hmatched.answer, h.restore (hmatched.orSame h.store)⟩
  | call c => exact Call.agree hkeeps ha h
  | ask question =>
    obtain rfl := Option.some.inj ha
    exact ⟨Question.answer_eq h, h⟩

theorem Action.sound (hs : e.Sound) (a : Action) : (a.apply e).Sound := by
  cases a with
  | declare | correct => exact hs.store _
  | call c => exact c.sound hs
  | ask => exact hs

/-- Engines that are alike for a pool stay so when one of them performs only what concerns it. -/
theorem replies_own : ∀ (actions : List Action) (e e' : Engine), e.Sound →
    (∀ a ∈ actions, a.Keeps home) → e.Alike home q e' →
    (e'.replies (Action.own home q actions) =
        (e.replies actions).filter fun x => x.1.pool? home = some q) ∧
      (e.perform actions).Alike home q (e'.perform (Action.own home q actions))
  | [], _, _, _, _, h => ⟨rfl, h⟩
  | a :: actions, e, e', hs, hkeeps, h => by
    have hkeeps' : ∀ a' ∈ actions, a'.Keeps home :=
      fun a' ha' => hkeeps a' (List.mem_cons_of_mem _ ha')
    have hs' : (a.apply e).Sound := a.sound hs
    by_cases ha : a.pool? home = some q
    · have hown : Action.own home q (a :: actions) = a :: Action.own home q actions :=
        List.filter_cons_of_pos (by simpa using ha)
      have hagree := Action.agree (hkeeps a List.mem_cons_self) ha h
      obtain ⟨hreplies, hafter⟩ := replies_own actions _ _ hs' hkeeps' hagree.engine
      rw [hown, Engine.replies, Engine.replies, List.filter_cons_of_pos (by simpa using ha)]
      exact ⟨congrArg₂ List.cons (congrArg (Prod.mk a) hagree.answer) hreplies, hafter⟩
    · have hown : Action.own home q (a :: actions) = Action.own home q actions :=
        List.filter_cons_of_neg (by simpa using ha)
      have halike := Action.alike_apply hs (hkeeps a List.mem_cons_self) ha
      rw [hown, Engine.replies, List.filter_cons_of_neg (by simpa using ha)]
      exact replies_own actions _ _ hs' hkeeps' (halike.of_common h)

end

/-- If the actions on other pools are taken out, those that are left are answered as before, and
lead to the same table, level, record and registers of the pool. -/
theorem isolated_pools {policy : PacePolicy} {store : Store} {cap : UInt32}
    {conflicts : ConflictPolicy} {past : List (System × Event)} {s : System}
    (run : Run policy (fun _ _ => True) (.start store cap conflicts) past s)
    {home : RegisterKey → Option PoolId} {actions : List Action}
    (hkeeps : ∀ a ∈ actions, a.Keeps home) (q : PoolId) :
    s.engine.replies (Action.own home q actions) =
        (s.engine.replies actions).filter (fun x => x.1.pool? home = some q) ∧
      (s.engine.perform (Action.own home q actions)).pools.live[q]? =
        (s.engine.perform actions).pools.live[q]? ∧
      (s.engine.perform (Action.own home q actions)).paceLevel q =
        (s.engine.perform actions).paceLevel q ∧
      (s.engine.perform (Action.own home q actions)).store.registries[q]? =
        (s.engine.perform actions).store.registries[q]? ∧
      ∀ k, home k = some q →
        (s.engine.perform (Action.own home q actions)).store.registers[k]? =
          (s.engine.perform actions).store.registers[k]? := by
  obtain ⟨hreplies, hafter⟩ := replies_own actions _ _
    (run.sound (Engine.sound_start store cap conflicts)) hkeeps (.refl (q := q) s.engine)
  exact ⟨hreplies, hafter.table, hafter.paceLevel, hafter.store.record, hafter.store.registers⟩

namespace Neighbours

def ids : PoolId := .netIds

def old : PoolId := { PoolId.netIds with name := "old", name_ok := rfl }

def home (k : RegisterKey) : Option PoolId :=
  if k.name = "x" then some ids else if k.name = "y" then some old else none

def spec : RegistrySpec := ⟨some 1, some .firstAvailable, none, none⟩

/-- Both pools are asked for one key, and the second is deleted and set up again. -/
def actions : List Action :=
  [.declare (.registry old spec), .call (.reconcileRegistry .standard old),
    .declare (.register (.naming "net" "x" "ids" "k")),
    .declare (.register (.naming "net" "y" "old" "k")), .call (.allocate old "op" "k" none),
    .call (.reconcileRegister (.naming "net" "y" "old" "k")),
    .call (.reconcileRegister (.naming "net" "x" "ids" "k")),
    .call (.reconcileRegister (.naming "net" "z" "" "k")), .call (.allocate ids "op" "j" none),
    .call (.deletePool old), .call (.nextDelay ids .standard), .call (.initPool old 2 .hash),
    .call (.incrementPace ids), .call (.resetPace old), .correct (.removeRegister ⟨"net", "y"⟩),
    .correct (.setIndex ⟨"net", "x"⟩ 0), .ask (.paceLevel ids), .declare (.registryDeleting ids),
    .declare (.registryDeleting old), .call (.reconcileRegistry .standard old),
    .call (.reconcileRegistry .standard ids), .ask (.status ids)]

end Neighbours

/-- The pool "net.ids" gives its one index to the register "x" and refuses a second key, while all
the time something else is done to "net.old". -/
theorem isolated_beside_deleted :
    ∃ (past : List (System × Event)) (s : System),
      Run .standard (fun _ _ => True) (.start .empty 3 .reject) past s ∧
        (∀ a ∈ Neighbours.actions, a.Keeps Neighbours.home) ∧
        (s.engine.replies (Action.own Neighbours.home Neighbours.ids Neighbours.actions)).map
            Prod.snd =
          [.stored (.ok ()), .register (.ok (.allocated 0 true)),
            .index (.error (.poolExhausted Neighbours.ids 1)), .delay 1000, .done, .stored (.ok ()),
            .level ⟨2⟩, .stored (.ok ()), .registry (.ok (.blocked 1 5000)),
            .status ⟨1, 1, 0, ["k"]⟩] ∧
        (s.engine.perform (Action.own Neighbours.home Neighbours.ids
            Neighbours.actions)).pools.live[Neighbours.ids]? =
          some ⟨#[.held ⟨"k", "x", none⟩], 1, .firstAvailable⟩ := by
  let events : List Event := [.pass 0, .declare (.registry Neighbours.ids Neighbours.spec)]
  have hrun : Run .standard (fun _ _ => True) (.start .empty 3 .reject) _ _ :=
    run_after events fun _ _ => trivial
  have hkeeps : ∀ a ∈ Neighbours.actions, a.Keeps Neighbours.home := by decide +kernel
  obtain ⟨hreplies, htable, -⟩ := isolated_pools hrun hkeeps Neighbours.ids
  refine ⟨_, _, hrun, hkeeps, ?_, ?_⟩
  · rw [hreplies]
    decide +kernel
  · rw [htable]
    decide +kernel

end IndexPools
