import NodeCpp.Event.Listeners

/-!
# What emissions invoke

The law of dispatch that the source states above its emitters: handlers are called in the
order of their registration, and what a handler changes takes effect from the next emission
on.
-/

namespace NodeCpp

open Lib

/-- What is seen of every run satisfies the law, and callbacks that return let the emissions that
have started return. -/
theorem emitter_dispatches (acts : List EmitterAct) (w : EmitterWorld)
    (hrun : emitterWorld.run {} acts = some w) :
    EmitEvent.Law (emitterWorld.trace EmitterAct.events {} acts) ∧
      emitterWorld.Reaches (· ∈ [.next, .ret]) w { w with frames := [], user := true } :=
  ⟨.of_run (EmitterWorld.run_simulates hrun), EmitterWorld.run_returns hrun⟩

/-- Two callbacks, one of them for one emission; the first registers another and emits, and so
calls itself and the new one before the second is called. -/
def nestedEmit : List EmitterAct :=
  [.on, .once, .emit, .next, .prependListener, .emit, .next, .ret, .next, .ret, .next, .ret,
    .next, .ret, .next]

theorem emitter_dispatches_nested :
    ∃ w, emitterWorld.run {} nestedEmit = some w ∧
      emitterWorld.trace EmitterAct.events {} nestedEmit =
        [.registers .on 0, .registers .once 1, .starts 0, .invokes 0 0, .registers .prepend 2,
          .starts 1, .invokes 1 2, .invokes 1 0, .returns 1, .invokes 0 1, .returns 0] ∧
      EmitEvent.Law (emitterWorld.trace EmitterAct.events {} nestedEmit) ∧
      emitterWorld.Reaches (· ∈ [.next, .ret]) w { w with frames := [], user := true } := by
  obtain ⟨w, hw, htrace⟩ : ∃ w, emitterWorld.run {} nestedEmit = some w ∧
      emitterWorld.trace EmitterAct.events {} nestedEmit =
        [.registers .on 0, .registers .once 1, .starts 0, .invokes 0 0, .registers .prepend 2,
          .starts 1, .invokes 1 2, .invokes 1 0, .returns 1, .invokes 0 1, .returns 0] := by
    decide +kernel
  exact ⟨w, hw, htrace, emitter_dispatches nestedEmit w hw⟩

/-- In every run whose emissions start while none runs and nothing is registered by `once`, and
whose registrations during an emission find room in the vector, what is seen satisfies the law,
and handlers that return let the emissions that have started return. -/
theorem listeners_dispatch_undisturbed (grow : Nat → Nat) (acts : List ListenersAct)
    (w : ListenersWorld)
    (hobeys : (listenersWorld grow).obeys ListenersWorld.Undisturbed {} acts)
    (hrun : (listenersWorld grow).run {} acts = some w) :
    EmitEvent.Law ((listenersWorld grow).trace ListenersAct.events {} acts) ∧
      (listenersWorld grow).Reaches (· ∈ [.next, .ret]) w
        { w with frames := [], user := true } := by
  obtain ⟨hd, hsound⟩ := ListenersWorld.run_simulates hobeys hrun
  exact ⟨.of_run hd, hsound.returns⟩

/-- Two lambdas and a listener; the first handler registers another, for which there is room. -/
def registeringHandler : List ListenersAct :=
  [.on, .onListener true, .on, .emit, .next, .on, .ret, .next, .ret, .next, .ret, .next, .emit,
    .next]

theorem listeners_dispatch_undisturbed_registering :
    ∃ w, (listenersWorld EvQueue.grow).obeys ListenersWorld.Undisturbed {} registeringHandler ∧
      (listenersWorld EvQueue.grow).run {} registeringHandler = some w ∧
      EmitEvent.Law
        ((listenersWorld EvQueue.grow).trace ListenersAct.events {} registeringHandler) ∧
      (listenersWorld EvQueue.grow).Reaches (· ∈ [.next, .ret]) w
        { w with frames := [], user := true } := by
  have hobeys : (listenersWorld EvQueue.grow).obeys ListenersWorld.Undisturbed {}
      registeringHandler := by decide +kernel
  obtain ⟨w, hw, -⟩ : ∃ w, (listenersWorld EvQueue.grow).run {} registeringHandler = some w ∧
      w.emits = 2 := by decide +kernel
  exact ⟨w, hobeys, hw, listeners_dispatch_undisturbed _ _ w hobeys hw⟩

/-- A handler is registered by `once`, and the emission that starts next returns without having
called it: it has swapped it out of the vector that it iterates. -/
theorem once_handler_dropped :
    ∃ w, (listenersWorld EvQueue.grow).run {} [.once, .emit, .next] = some w ∧
      w.emitter.callbacks.elements = [] ∧
      ¬EmitEvent.Law
        ((listenersWorld EvQueue.grow).trace ListenersAct.events {} [.once, .emit, .next]) := by
  obtain ⟨w, hw, hempty, htrace⟩ :
      ∃ w, (listenersWorld EvQueue.grow).run {} [.once, .emit, .next] = some w ∧
        w.emitter.callbacks.elements = [] ∧
        (listenersWorld EvQueue.grow).trace ListenersAct.events {} [.once, .emit, .next] =
          [.registers .once 0, .starts 0, .returns 0] := by decide +kernel
  refine ⟨w, hw, hempty, fun hlaw => ?_⟩
  rw [htrace] at hlaw
  have hinvoked : 0 ∈ EmitEvent.invocations 0 [.registers .once 0, .starts 0, .returns 0] :=
    hlaw.reached 0 [] .once 0 [] [.returns 0] rfl (fun _ _ => List.not_mem_nil) (by decide)
  revert hinvoked
  decide

end NodeCpp
