import NesMachine.Proofs.Cpu.Request

/-!
# `NesMachine/Proofs/Cpu/History.lean` — the count of cycles, read off a history

What a processor has counted can be computed from outside, by somebody who only watched what its
calls came to: the sum of what the steps answered, and seven for each signal that was served. That
number is `reading`.

One call moves the count by the reading of its event (`spends_event`), and a history moves it by the
sum (`spends_history`). Nothing is assumed of the buses, so the history may be full of accesses that
were refused in the middle of an instruction.
-/

set_option autoImplicit false

namespace NesMachine

namespace Cpu

/-- What a step that succeeded answered. -/
def Event.stepped : Event → Nat
  | ⟨.step, _, .ok (.cycles count), _⟩ => count
  | _ => 0

def Event.servedNmi : Event → Bool
  | ⟨.nmi, _, .ok _, _⟩ => true
  | _ => false

/-- The maskable signal was served: the call succeeded, and the flag was set when it was made. -/
def Event.servedIrq : Event → Bool
  | ⟨.irq, before, .ok _, _⟩ => before.registers.p.interrupt
  | _ => false

def steppedTotal : List Event → Nat
  | [] => 0
  | event :: events => event.stepped + steppedTotal events

/-- The cycles that somebody counts who watched the events. -/
def reading (events : List Event) : Nat :=
  steppedTotal events + 7 * events.countP Event.servedNmi + 7 * events.countP Event.servedIrq

theorem reading_cons (event : Event) (events : List Event) :
    reading (event :: events) = reading [event] + reading events := by
  simp only [reading, steppedTotal, List.countP_cons, List.countP_nil]
  omega

variable {bus : Type} [Bus bus]

/-! ## One call -/

theorem reading_ok {request : Request} {before after : Cpu} {answer : Answer}
    (h : request.Admits answer) :
    reading [⟨request, before, .ok answer, after⟩] = request.cost before answer := by
  cases request with
  | step =>
    obtain ⟨count, rfl, -, -⟩ := h
    rfl
  | irq =>
    simp only [reading, steppedTotal, Event.stepped, Event.servedNmi, Request.cost,
      List.countP_singleton]
    cases hi : before.registers.p.interrupt <;> simp [Event.servedIrq, hi, interruptCycles]
  | _ => rfl

theorem reading_error {request : Request} {before after : Cpu} {fault : Fault} :
    reading [⟨request, before, .error fault, after⟩] = 0 := by
  cases request <;> rfl

theorem ends_call (call : Call bus) {cpu : Cpu} (hon : cpu.isOn = true)
    (hr : call.request.rewinds = false) :
    (call.request.routine.run (cpu, call.on)).Ends
      (fun answer state => call.request.Admits answer
        ∧ cpu.Spends (call.request.cost cpu answer) state.1)
      (fun _ state => cpu.Spends 0 state.1) := by
  refine ((fulfils_request hon hr).run call.on).mono ?_ ?_
  · intro answer state h
    exact h
  · rintro fault state (h | h)
    · exact h.2
    · exact h

/-- **A call moves the count by its reading.** -/
theorem spends_event (call : Call bus) {cpu : Cpu} (hon : cpu.isOn = true)
    (hr : call.request.rewinds = false) :
    cpu.Spends (reading [call.event cpu]) (call.event cpu).after := by
  have h := ends_call call hon hr
  unfold Call.event
  dsimp only
  cases hv : (call.request.routine.run (cpu, call.on)).result with
  | ok answer =>
    obtain ⟨ha, hs⟩ := h.of_ok hv
    rw [reading_ok ha]
    exact hs
  | error fault =>
    rw [reading_error]
    exact h.of_error hv

/-! ## A history -/

/-- What every call of a history keeps is kept by the history, and holds before and after each of
its calls. -/
theorem history_kept {P : Cpu → Prop} {calls : List (Call bus)} {cpu : Cpu}
    (hkept : ∀ call ∈ calls, ∀ cpu, P cpu → P (call.event cpu).after) (h : P cpu) :
    P (afterCalls calls cpu) ∧ ∀ event ∈ history calls cpu, P event.before ∧ P event.after := by
  induction calls generalizing cpu with
  | nil =>
    refine ⟨h, ?_⟩
    intro event hevent
    cases hevent
  | cons call calls ih =>
    have hfirst := hkept call List.mem_cons_self cpu h
    obtain ⟨hlast, hrest⟩ := ih (fun c hc => hkept c (List.mem_cons_of_mem call hc)) hfirst
    refine ⟨hlast, ?_⟩
    intro event hevent
    rw [history, List.mem_cons] at hevent
    rcases hevent with rfl | hevent
    · exact ⟨h, hfirst⟩
    · exact hrest event hevent

/-- **A history moves the count by its reading**, and does not switch the processor off. -/
theorem spends_history {calls : List (Call bus)} {cpu : Cpu} (hon : cpu.isOn = true)
    (hr : ∀ call ∈ calls, call.request.rewinds = false) :
    cpu.Spends (reading (history calls cpu)) (afterCalls calls cpu) := by
  induction calls generalizing cpu with
  | nil => exact .refl cpu
  | cons call calls ih =>
    -- What the first call leaves is on again, and that is all the rest needs of it.
    have hfirst := spends_event call hon (hr call List.mem_cons_self)
    have hrest := ih (hfirst.on hon) fun c hc => hr c (List.mem_cons_of_mem call hc)
    rw [history, reading_cons]
    exact hfirst.trans hrest

theorem event_of_mem_history {calls : List (Call bus)} {cpu : Cpu} (hon : cpu.isOn = true)
    (hr : ∀ call ∈ calls, call.request.rewinds = false) {event : Event}
    (he : event ∈ history calls cpu) :
    ∃ call ∈ calls, ∃ before : Cpu, before.isOn = true ∧ event = call.event before := by
  induction calls generalizing cpu with
  | nil => simp [history] at he
  | cons call calls ih =>
    rw [history, List.mem_cons] at he
    rcases he with rfl | he
    · exact ⟨call, List.mem_cons_self, cpu, hon, rfl⟩
    · have hfirst := spends_event call hon (hr call List.mem_cons_self)
      obtain ⟨c, hc, before, hb, rfl⟩ :=
        ih (hfirst.on hon) (fun c hc => hr c (List.mem_cons_of_mem call hc)) he
      exact ⟨c, List.mem_cons_of_mem call hc, before, hb, rfl⟩

/-- The calls after which the count is zero: switching on a processor that is off, and clearing or
resetting one that is on. -/
def Request.Restarts (request : Request) (cpu : Cpu) : Prop :=
  match request with
  | powerOn => cpu.isOn = false
  | clear => cpu.isOn = true
  | reset => cpu.isOn = true
  | _ => False

/-- After a restart the processor is on and its count is zero, also if a reset could not read its
vector. -/
theorem after_restart {call : Call bus} {cpu : Cpu} (h : call.request.Restarts cpu) :
    (call.event cpu).after.isOn = true ∧ (call.event cpu).after.cycles = 0 := by
  obtain ⟨request, on⟩ := call
  cases request with
  | powerOn =>
    obtain ⟨r, cycles, _⟩ := cpu
    obtain rfl : _ = false := h
    exact ⟨rfl, rfl⟩
  | clear =>
    obtain ⟨r, cycles, _⟩ := cpu
    obtain rfl : _ = true := h
    exact ⟨rfl, rfl⟩
  | reset =>
    have hfulfils : (Request.reset.routine cpu).Fulfils
        (.timed cpu.cleared (fun _ => 0) (fun _ => True) fun _ => True) :=
      fulfils_silent (Routine.fulfils_reset h)
    have hs : cpu.cleared.Spends 0 ((⟨.reset, on⟩ : Call bus).event cpu).after := by
      refine Outcome.Ends.state (P := fun state => cpu.cleared.Spends 0 state.1)
        ((hfulfils.run on).mono ?_ ?_)
      · intro answer state hv
        exact hv.2
      · rintro fault state (hf | hc)
        · exact hf.2
        · exact hc
    exact ⟨hs.on h, by rw [hs.cycles]; rfl⟩
  | _ => exact absurd h id

/-- **Only the two requests that switch the processor change whether it is on.** -/
theorem isOn_event {call : Call bus} (hs : call.request.switches = false) (cpu : Cpu) :
    (call.event cpu).after.isOn = cpu.isOn := by
  cases hon : cpu.isOn with
  | false =>
    obtain ⟨request, on⟩ := call
    cases request with
    | powerOn => exact absurd hs (by simp [Request.switches])
    | setRegisters f => exact hon
    -- Every other request refuses, and `request_off` says with which processor.
    | _ =>
      unfold Call.event
      rw [Routine.run, request_off hon (by simp) (by simp)]
      exact hon
  | true =>
    cases hr : call.request.rewinds with
    | false => exact (spends_event call hon hr).on hon
    | true =>
      obtain ⟨request, on⟩ := call
      cases request with
      | clear =>
        have hrestarts : (⟨.clear, on⟩ : Call bus).request.Restarts cpu := hon
        exact (after_restart hrestarts).1
      | reset =>
        have hrestarts : (⟨.reset, on⟩ : Call bus).request.Restarts cpu := hon
        exact (after_restart hrestarts).1
      | powerOff => exact absurd hs (by simp [Request.switches])
      | _ => exact absurd hr (by simp [Request.rewinds])

end Cpu

end NesMachine
