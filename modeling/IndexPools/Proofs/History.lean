import IndexPools.Proofs.Answers

/-!
# Histories of calls

A history is a list of calls with the engines that they met (`Trace`). A pass is one: it reconciles
its registers and then the registries that are due (`trace_passCalls`). So a run is one history of
calls, its passes taken apart (`Run.trace`), and what is said of every history of calls is said of
every point of a run, also between two visits of a pass.
-/

namespace IndexPools

/-- The histories from `e₀`: the calls with the engines that they met, the last first. The store may
change at any time. -/
inductive Trace (e₀ : Engine) : (calls : List (Engine × Call)) → Engine → Prop
  | start : Trace e₀ [] e₀
  | store {calls : List (Engine × Call)} {e : Engine} (before : Trace e₀ calls e) (s : Store) :
      Trace e₀ calls { e with store := s }
  | call {calls : List (Engine × Call)} {e : Engine} (before : Trace e₀ calls e) (c : Call) :
      Trace e₀ ((e, c) :: calls) (c.apply e)

/-- The call reconciles a registry, or one of the registers. -/
def Call.Reconciles (registers : List RegisterRecord) (c : Call) : Prop :=
  (∃ r ∈ registers, c = .reconcileRegister r) ∨
    ∃ policy pool, c = .reconcileRegistry policy pool

section

variable {e₀ e₁ e : Engine} {calls calls' : List (Engine × Call)}

theorem Trace.sound (h : Trace e₀ calls e) (hs : e₀.Sound) : e.Sound := by
  induction h with
  | start => exact hs
  | store _ s ih => exact ih.store s
  | call _ c ih => exact c.sound ih

theorem Trace.trans (h : Trace e₀ calls e₁) (h' : Trace e₁ calls' e) :
    Trace e₀ (calls' ++ calls) e := by
  induction h' with
  | start => exact h
  | store _ s ih => exact ih.store s
  | call _ c ih => exact ih.call c

end

/-- The calls by which a pass reconciles registers, the last first. -/
def Engine.registerCalls : List RegisterRecord → Engine → List (Engine × Call)
  | [], _ => []
  | r :: rs, e => registerCalls rs (e.reconcileRegister r).2 ++ [(e, .reconcileRegister r)]

/-- The calls by which a pass reconciles the registries that are due, the last first. -/
def Pass.registryCalls (policy : PacePolicy) (now : Millis) :
    List PoolId → Pass → List (Engine × Call)
  | [], _ => []
  | pool :: pools, p =>
    if p.schedule.isDue pool now (p.engine.paceLevel pool) then
      let p' := p.visitRegistry policy now pool
      (if p'.overflow then [] else registryCalls policy now pools p') ++
        [(p.engine, .reconcileRegistry policy pool)]
    else registryCalls policy now pools p

/-- The calls that a pass makes, the last first. -/
def Engine.passCalls (e : Engine) (policy : PacePolicy) (schedule : Schedule) (now : Millis) :
    List (Engine × Call) :=
  Pass.registryCalls policy now (e.midway schedule).engine.store.registryIds (e.midway schedule) ++
    registerCalls e.store.registerList e

theorem trace_registerCalls : ∀ (rs : List RegisterRecord) (p : Pass),
    Trace p.engine (Engine.registerCalls rs p.engine) (Pass.visitRegisters rs p).engine
  | [], _ => .start
  | r :: rs, p =>
    (Trace.start.call (.reconcileRegister r)).trans (trace_registerCalls rs (p.visitRegister r))

theorem trace_registryCalls (policy : PacePolicy) (now : Millis) :
    ∀ (pools : List PoolId) (p : Pass), Trace p.engine (Pass.registryCalls policy now pools p)
      (Pass.visitRegistries policy now pools p).engine
  | [], _ => .start
  | pool :: pools, p => by
    have hvisit : Trace p.engine [(p.engine, .reconcileRegistry policy pool)]
        (p.visitRegistry policy now pool).engine := by
      rw [Engine.engine_visitRegistry]
      exact Trace.start.call (.reconcileRegistry policy pool)
    simp only [Pass.registryCalls, Pass.visitRegistries]
    split_ifs
    · exact hvisit
    · exact hvisit.trans (trace_registryCalls policy now pools _)
    · exact trace_registryCalls policy now pools p

namespace Engine

variable (e : Engine) (policy : PacePolicy) (schedule : Schedule) (now : Millis)

theorem trace_midway :
    Trace e (registerCalls e.store.registerList e) (e.midway schedule).engine :=
  trace_registerCalls e.store.registerList ⟨e, schedule, .zero, false⟩

theorem trace_passCalls :
    Trace e (e.passCalls policy schedule now) (e.pass policy schedule now).engine :=
  (e.trace_midway schedule).trans (trace_registryCalls policy now _ (e.midway schedule))

theorem mem_registerCalls : ∀ {rs : List RegisterRecord} {e : Engine} {x : Engine × Call},
    x ∈ registerCalls rs e → ∃ r ∈ rs, x.2 = .reconcileRegister r
  | [], _, _, h => nomatch h
  | r :: rs, e, x, h => by
    rcases List.mem_append.1 h with h | h
    · obtain ⟨r', hr', hx⟩ := mem_registerCalls h
      exact ⟨r', List.mem_cons_of_mem _ hr', hx⟩
    · rw [List.mem_singleton.1 h]
      exact ⟨r, List.mem_cons_self, rfl⟩

theorem mem_registryCalls : ∀ {pools : List PoolId} {p : Pass} {x : Engine × Call},
    x ∈ Pass.registryCalls policy now pools p → ∃ pool, x.2 = .reconcileRegistry policy pool
  | [], _, _, h => nomatch h
  | pool :: pools, p, x, h => by
    simp only [Pass.registryCalls] at h
    split_ifs at h
    · rw [List.mem_singleton.1 h]
      exact ⟨pool, rfl⟩
    · rcases List.mem_append.1 h with h | h
      · exact mem_registryCalls h
      · rw [List.mem_singleton.1 h]
        exact ⟨pool, rfl⟩
    · exact mem_registryCalls h

/-- A pass calls for registers that the store held before it, and for registries. -/
theorem reconciles_of_passCalls {x : Engine × Call}
    (hx : x ∈ e.passCalls policy schedule now) : x.2.Reconciles e.store.registerList := by
  rcases List.mem_append.1 hx with hx | hx
  · obtain ⟨pool, hc⟩ := mem_registryCalls policy now hx
    exact .inr ⟨policy, pool, hc⟩
  · exact .inl (mem_registerCalls hx)

end Engine

/-- The calls of an event, the last first. -/
def System.calls (policy : PacePolicy) (s : System) : Event → List (Engine × Call)
  | .call c => [(s.engine, c)]
  | .pass now => s.engine.passCalls policy s.schedule now
  | .declare _ | .correct _ => []

/-- All calls of a run, the last first. -/
def pastCalls (policy : PacePolicy) (past : List (System × Event)) : List (Engine × Call) :=
  past.flatMap fun x => x.1.calls policy x.2

theorem System.trace_step (policy : PacePolicy) (s : System) (event : Event) :
    Trace s.engine (s.calls policy event) (s.step policy event).engine := by
  cases event with
  | declare d => exact Trace.start.store _
  | correct c => exact Trace.start.store _
  | call c => exact Trace.start.call c
  | pass now => exact s.engine.trace_passCalls policy s.schedule now

theorem Run.trace {policy : PacePolicy} {admits : System → Event → Prop} {s₀ s : System}
    {past : List (System × Event)} (run : Run policy admits s₀ past s) :
    Trace s₀.engine (pastCalls policy past) s.engine := by
  induction run with
  | start => exact .start
  | step before event _ ih => exact ih.trans (System.trace_step policy _ event)

end IndexPools
