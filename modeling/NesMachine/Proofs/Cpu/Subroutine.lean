import NesMachine.Proofs.Cpu.Interruption

/-!
# `NesMachine/Proofs/Cpu/Subroutine.lean` — into a subroutine and back

A call leaves the address of its last byte on the stack, and a return goes on behind the address that
it finds there. The two agree about two cells and nothing else: if they hold what the call has put
there, and the stack pointer is where the call has left it, then the return is to behind the call
(`Called.popped`), whatever the subroutine has done.

Calls within calls do not disturb each other as long as the page has room for them. `Frames` says that
the addresses of all calls that have not returned are in their cells. A call adds one of them and a
return takes one off (`Unreturned.call`, `Unreturned.back`), and a page has room for 128. So a program
sees a list of calls, of which the latest is the one that it returns to.
-/

set_option autoImplicit false

namespace NesMachine

namespace Cpu

/-! ## One call -/

/-- `after` is `before` gone into a subroutine, from a call at the program counter: the address of the
last byte of the call is on the stack, high byte first, and the processor goes on at the address in
the call, as it stood there before anything was pushed. Nothing else has changed. -/
structure Called (before after : Cpu × Ram) : Prop where
  registers : after.1.registers = { before.1.registers with
    sp := before.1.registers.sp - 2
    pc := word (before.2.read (before.1.registers.pc + 1))
      (before.2.read (before.1.registers.pc + 2)) }
  cycles : after.1.cycles = before.1.cycles + 6
  isOn : after.1.isOn = before.1.isOn
  high : after.2.read (stackBelow before.1.registers.sp 0)
    = highByte (before.1.registers.pc + 2)
  low : after.2.read (stackBelow before.1.registers.sp 1)
    = lowByte (before.1.registers.pc + 2)
  elsewhere : ∀ address, (∀ n < 2, address ≠ stackBelow before.1.registers.sp n) →
    after.2.read address = before.2.read address

section

variable (r : Registers) (c : UInt32) (ram : Ram)

/-- What a call leaves of the memory. -/
def calledRam : Ram := ram.pushed r.sp [highByte (r.pc + 2), lowByte (r.pc + 2)]

/-- What a call leaves of the registers. -/
def calledRegisters : Registers :=
  { r with sp := r.sp - 2, pc := word (ram.read (r.pc + 1)) (ram.read (r.pc + 2)) }

theorem run_jsr (h : ram.read r.pc = 0x20) : Routine.step.run (⟨r, c, true⟩, ram)
    = ⟨.ok 6, (⟨calledRegisters r ram, c + 6, true⟩, calledRam r ram), []⟩ := by
  have hi : Instruction.decode (ram.read r.pc) = some ⟨0x20, .jump .jsr, .absolute, 6, false⟩ := by
    rw [h]
    decide +kernel
  have hlast : r.pc + 1 + 2 - 1 = r.pc + 2 := by grind
  have hoperand : r.pc + 1 + 1 = r.pc + 2 := by grind
  have hsp : r.sp - 1 - 1 = r.sp - 2 := by grind
  rw [Routine.run_step c hi, calledRam, ← hlast, calledRegisters, ← hoperand, ← hsp]
  rfl

theorem called : Called (⟨r, c, true⟩, ram)
    (⟨calledRegisters r ram, c + 6, true⟩, calledRam r ram) := by
  have hcell {i : Nat} {byte : UInt8} (hi : i ≤ 256)
      (h : [highByte (r.pc + 2), lowByte (r.pc + 2)][i]? = some byte) :
      (calledRam r ram).read (stackBelow r.sp i) = byte := by
    rw [stackBelow_eq r.sp hi]
    exact ram.read_pushed r.sp (Nat.le_of_ble_eq_true rfl) h
  refine ⟨rfl, rfl, rfl, hcell (by decide) rfl, hcell (by decide) rfl, ?_⟩
  intro address h
  apply ram.read_pushed_of_ne
  intro i hi
  have hi : i < 2 := hi
  rw [← stackBelow_eq r.sp (by omega)]
  exact h i hi

/-- What a return makes of the registers. -/
def rtsRegisters : Registers := { r with sp := r.sp + 2, pc := ram.poppedWord r.sp + 1 }

theorem run_rts (h : ram.read r.pc = 0x60) : Routine.step.run (⟨r, c, true⟩, ram)
    = ⟨.ok 6, (⟨rtsRegisters r ram, c + 6, true⟩, ram), []⟩ := by
  have hi : Instruction.decode (ram.read r.pc) = some ⟨0x60, .jump .rts, .implied, 6, false⟩ := by
    rw [h]
    decide +kernel
  have hsp : r.sp + 1 + 1 = r.sp + 2 := by grind
  rw [Routine.run_step c hi, rtsRegisters, ← hsp]
  rfl

end

/-- **What a return finds that pops what the call has pushed.** -/
theorem Called.popped {before after later : Cpu × Ram} (h : Called before after)
    (hsp : later.1.registers.sp = after.1.registers.sp)
    (hcells : ∀ n < 2, later.2.read (stackBelow before.1.registers.sp n)
      = after.2.read (stackBelow before.1.registers.sp n)) :
    later.2.poppedWord later.1.registers.sp = before.1.registers.pc + 2 ∧
      later.1.registers.sp + 2 = before.1.registers.sp := by
  have htwo : later.1.registers.sp = before.1.registers.sp - 2 :=
    hsp.trans (congrArg Registers.sp h.registers)
  have hcell (n : Nat) (hn : n < 2) {p : UInt8} (hp : p = before.1.registers.sp - .ofNat n) :
      later.2.read (stackCell p) = after.2.read (stackBelow before.1.registers.sp n) := by
    rw [← hcells n hn, stackBelow_eq _ (by omega), hp]
  refine ⟨?_, ?_⟩
  · rw [Ram.poppedWord, Ram.popped, Ram.popped, hcell 1 (by decide) (by grind),
      hcell 0 (by decide) (by grind), h.low, h.high, word_lowByte_highByte]
  · grind

/-! ## Calls within calls -/

/-- A request as it concerns the calls of a program: a step that is a call, a step that is a return,
or work of any other kind. -/
inductive Move where
  | call
  | back
  | work (request : Request)

def Move.request : Move → Request
  | call => .step
  | back => .step
  | work request => request

/-- What the move leaves. -/
def Move.after (move : Move) (state : Cpu × Ram) : Cpu × Ram :=
  (move.request.routine.run state).state

/-- A step that is asked for leaves what a step leaves. -/
theorem after_of_step {move : Move} (hmove : move.request = .step) {state left : Cpu × Ram}
    {cycles : Nat} {log : List Log.Entry}
    (h : Routine.step.run state = ⟨.ok cycles, left, log⟩) : move.after state = left := by
  rw [Move.after, hmove, run_request_step h]

/-- The move is what it says. Other work leaves the processor on, the stack pointer where it is, and
the stack page as it is. -/
def Move.Fits (state : Cpu × Ram) : Move → Prop
  | call => state.2.read state.1.registers.pc = 0x20
  | back => state.2.read state.1.registers.pc = 0x60
  | work request =>
    let later := (work request).after state
    later.1.isOn = true ∧ later.1.registers.sp = state.1.registers.sp ∧
      ∀ address, 0x100 ≤ address.toNat → address.toNat < 0x200 →
        later.2.read address = state.2.read address

/-- All moves in a row are what they say. -/
def Fit : List Move → Cpu × Ram → Prop
  | [], _ => True
  | move :: moves, state => move.Fits state ∧ Fit moves (move.after state)

/-- What can be seen of a call, and of a return. -/
inductive Mark where
  /-- The address of the call. -/
  | called (address : UInt16)
  /-- Where the return went. -/
  | returned (address : UInt16)
  deriving DecidableEq

/-- The calls and the returns of a run, in order. -/
def marks : List Move → Cpu × Ram → List Mark
  | [], _ => []
  | .call :: moves, state =>
    .called state.1.registers.pc :: marks moves (Move.call.after state)
  | .back :: moves, state =>
    let later := Move.back.after state
    .returned later.1.registers.pc :: marks moves later
  | .work request :: moves, state => marks moves ((Move.work request).after state)

/-- No return comes without a call, and there are never more than 128 calls that have not returned;
`count` of them are there at first. -/
def Nested : (count : Nat) → List Mark → Prop
  | _, [] => True
  | count, .called _ :: rest => count < 128 ∧ Nested (count + 1) rest
  | 0, .returned _ :: _ => False
  | count + 1, .returned _ :: rest => Nested count rest

/-- The calls that have not returned, the latest first, if every return is to behind the latest of
them, which is three bytes long. -/
def unreturned : List UInt16 → List Mark → Option (List UInt16)
  | frames, [] => some frames
  | frames, .called address :: rest => unreturned (address :: frames) rest
  | [], .returned _ :: _ => none
  | address :: frames, .returned target :: rest =>
    if target = address + 3 then unreturned frames rest else none

/-! ## The page holds the addresses -/

/-- What was pushed by the calls at these addresses, the latest first, lies above the stack pointer. -/
def Frames (ram : Ram) : (sp : UInt8) → List UInt16 → Prop
  | _, [] => True
  | sp, address :: frames => ram.poppedWord sp = address + 2 ∧ Frames ram (sp + 2) frames

theorem Frames.of_agree {ram ram' : Ram} {sp : UInt8} {frames : List UInt16}
    (h : Frames ram sp frames) (hsame : ∀ n < 2 * frames.length,
      ram'.read (stackCell (sp + 1 + .ofNat n)) = ram.read (stackCell (sp + 1 + .ofNat n))) :
    Frames ram' sp frames := by
  induction frames generalizing sp with
  | nil => trivial
  | cons address frames ih =>
    rw [List.length_cons] at hsame
    obtain ⟨hfirst, hrest⟩ := h
    refine ⟨?_, ih hrest fun n hn => ?_⟩
    · have hlow := hsame 0 (by omega)
      have hhigh := hsame 1 (by omega)
      rw [show sp + 1 + UInt8.ofNat 0 = sp + 1 from UInt8.add_zero _] at hlow
      rw [← hfirst, Ram.poppedWord, Ram.popped, Ram.popped, hlow]
      exact congrArg _ hhigh
    · have hcell := hsame (n + 2) (by omega)
      have hup : sp + 1 + UInt8.ofNat (n + 2) = sp + 2 + 1 + .ofNat n := by
        rw [UInt8.ofNat_add]
        grind
      rwa [hup] at hcell

/-- The processor is on, and the calls at `frames` have not returned since the stack pointer was
`sp`. -/
structure Unreturned (sp : UInt8) (frames : List UInt16) (state : Cpu × Ram) : Prop where
  isOn : state.1.isOn = true
  sp_eq : state.1.registers.sp + .ofNat (2 * frames.length) = sp
  frames : Frames state.2 state.1.registers.sp frames

namespace Unreturned

variable {sp : UInt8} {frames : List UInt16} {state : Cpu × Ram} {address : UInt16}

/-- **A call is put before those that have not returned**, as long as there is room for one. -/
theorem call (h : Unreturned sp frames state) (hroom : frames.length < 128)
    (hfits : Move.call.Fits state) :
    Unreturned sp (state.1.registers.pc :: frames) (Move.call.after state) := by
  obtain ⟨⟨r, c, _⟩, ram⟩ := state
  obtain ⟨rfl, hsp, hframes⟩ := h
  have hafter : Move.call.after (⟨r, c, true⟩, ram)
      = (⟨calledRegisters r ram, c + 6, true⟩, calledRam r ram) :=
    after_of_step rfl (run_jsr r c ram hfits)
  have hcalled := called r c ram
  have hback : r.sp - 2 + 2 = r.sp := UInt8.sub_add_cancel r.sp 2
  rw [hafter]
  refine ⟨rfl, ?_, (hcalled.popped rfl fun _ _ => rfl).1, ?_⟩
  · have hgrown : r.sp - 2 + UInt8.ofNat (2 * (frames.length + 1))
        = r.sp + .ofNat (2 * frames.length) := by
      rw [Nat.mul_add, UInt8.ofNat_add]
      grind
    exact hgrown.trans hsp
  · -- The two cells below those of the earlier calls are none of theirs.
    show Frames _ (r.sp - 2 + 2) frames
    rw [hback]
    apply hframes.of_agree
    intro n hn
    apply hcalled.elsewhere
    intro i hi
    rw [stackBelow_eq _ (by omega), Ne, stackCell_inj]
    have hcell := add_ofNat_ne (r.sp - .ofNat i) (n := n + 1 + i) (by omega) (by omega)
    have hup : r.sp - .ofNat i + UInt8.ofNat (n + 1 + i) = r.sp + 1 + .ofNat n := by
      rw [UInt8.ofNat_add, UInt8.ofNat_add]
      grind
    rwa [hup] at hcell

/-- **A return is to behind the latest call that has not returned.** -/
theorem back (h : Unreturned sp (address :: frames) state) (hfits : Move.back.Fits state) :
    (Move.back.after state).1.registers.pc = address + 3 ∧
      Unreturned sp frames (Move.back.after state) := by
  obtain ⟨⟨r, c, _⟩, ram⟩ := state
  obtain ⟨rfl, hsp, hfirst, hrest⟩ := h
  have hafter : Move.back.after (⟨r, c, true⟩, ram) = (⟨rtsRegisters r ram, c + 6, true⟩, ram) :=
    after_of_step rfl (run_rts r c ram hfits)
  rw [hafter]
  refine ⟨?_, rfl, ?_, hrest⟩
  · show ram.poppedWord r.sp + 1 = address + 3
    rw [hfirst]
    grind
  · rw [← hsp, List.length_cons]
    show r.sp + 2 + _ = r.sp + _
    rw [Nat.mul_add, UInt8.ofNat_add]
    grind

theorem work {request : Request} (h : Unreturned sp frames state)
    (hfits : (Move.work request).Fits state) :
    Unreturned sp frames ((Move.work request).after state) := by
  obtain ⟨hon, hsp, hcells⟩ := hfits
  refine ⟨hon, ?_, ?_⟩
  · rw [hsp]
    exact h.sp_eq
  · rw [hsp]
    apply h.frames.of_agree
    intro n _
    have hlt := (state.1.registers.sp + 1 + .ofNat n).toNat_lt
    exact hcells _ (by rw [toNat_stackCell]; omega) (by rw [toNat_stackCell]; omega)

/-- **A run returns from its calls, the latest first.** The induction is on the moves, and what carries
it is that the page holds the addresses. -/
theorem run {moves : List Move} (h : Unreturned sp frames state) (hfit : Fit moves state)
    (hnested : Nested frames.length (marks moves state)) :
    ∃ rest, unreturned frames (marks moves state) = some rest ∧
      Unreturned sp rest (afterSeries (moves.map Move.request) state) := by
  induction moves generalizing frames state with
  | nil => exact ⟨frames, rfl, h⟩
  | cons move moves ih =>
    obtain ⟨hmove, hmoves⟩ := hfit
    cases move with
    | call =>
      obtain ⟨hroom, hrest⟩ := hnested
      exact ih (h.call hroom hmove) hmoves hrest
    | back =>
      cases frames with
      | nil => exact absurd hnested id
      | cons address frames =>
        obtain ⟨hpc, hback⟩ := h.back hmove
        obtain ⟨rest, hrest, hlast⟩ := ih hback hmoves hnested
        exact ⟨rest, (if_pos hpc).trans hrest, hlast⟩
    | work request => exact ih (h.work hmove) hmoves hnested

end Unreturned

/-! ## First all calls, then all returns -/

section

variable {callers landings frames rest : List UInt16}

theorem unreturned_calls (frames callers : List UInt16) (rest : List Mark) :
    unreturned frames (callers.map .called ++ rest)
      = unreturned (callers.reverse ++ frames) rest := by
  induction callers generalizing frames with
  | nil => rfl
  | cons address callers ih =>
    rw [List.reverse_cons, List.append_assoc]
    exact ih (address :: frames)

theorem landings_of_unreturned (h : unreturned frames (landings.map .returned) = some rest) :
    frames.map (· + 3) = landings ++ rest.map (· + 3) := by
  induction landings generalizing frames with
  | nil =>
    obtain rfl := Option.some.inj h
    rfl
  | cons target landings ih =>
    cases frames with
    | nil => cases h
    | cons address frames =>
      rw [List.map_cons, unreturned] at h
      by_cases htarget : target = address + 3
      · rw [if_pos htarget] at h
        rw [List.map_cons, ih h, htarget]
        rfl
      · rw [if_neg htarget] at h
        cases h

theorem nested_returns (landings : List UInt16) :
    Nested landings.length (landings.map .returned) := by
  induction landings with
  | nil => trivial
  | cons target landings ih => exact ih

theorem nested_calls {count : Nat} {marks : List Mark} (hroom : count + callers.length ≤ 128)
    (h : Nested (count + callers.length) marks) :
    Nested count (callers.map .called ++ marks) := by
  induction callers generalizing count with
  | nil => exact h
  | cons address callers ih =>
    rw [List.length_cons, Nat.add_comm callers.length, ← Nat.add_assoc] at h hroom
    exact ⟨by omega, ih hroom h⟩

end

/-- **A subroutine returns to behind its call.**

A call may stand anywhere, also across the end of memory or in the stack page that it writes to. It
pushes the address of its last byte and goes on at the address in it; `Called` says all that there is
to say. After that anything may be done that does not switch the processor, steps and signals of any
number among it. If it comes to a return with the stack pointer where the call has left it, and the two
cells hold what was pushed, then the return succeeds, goes on behind the call, and restores the stack
pointer. Nothing else changes.

Calls may be nested 128 deep, from any stack pointer on, if nothing but calls and returns moves the
stack pointer or changes the stack page. Every return is then to behind the latest call that has not
returned, and the stack pointer is two cells further down for every call that is left. So if some calls
come first and then as many returns, they return in reverse order. -/
theorem subroutines_return (cpu : Cpu) (ram : Ram) (hon : cpu.isOn = true) :
    let r := cpu.registers
    (ram.read r.pc = 0x20 →
      let step := Routine.step.run (cpu, ram)
      let entered := step.state
      step.result = .ok 6 ∧ Called (cpu, ram) entered ∧
      ∀ body : List Request, (∀ request ∈ body, request.switches = false) →
        let later := afterSeries body entered
        let back := Routine.step.run later
        later.2.read later.1.registers.pc = 0x60 →
        later.1.registers.sp = entered.1.registers.sp →
        (∀ n < 2, later.2.read (stackBelow r.sp n) = entered.2.read (stackBelow r.sp n)) →
        back.result = .ok 6 ∧
        back.state.1.registers = { later.1.registers with sp := r.sp, pc := r.pc + 3 } ∧
        back.state.2 = later.2) ∧
    ∀ moves : List Move, Fit moves (cpu, ram) →
      let seen := marks moves (cpu, ram)
      let later := afterSeries (moves.map Move.request) (cpu, ram)
      (Nested 0 seen → ∃ left, unreturned [] seen = some left ∧
        later.1.registers.sp + .ofNat (2 * left.length) = r.sp) ∧
      ∀ callers landings : List UInt16,
        seen = callers.map .called ++ landings.map .returned →
        callers.length = landings.length → callers.length ≤ 128 →
        landings = (callers.map (· + 3)).reverse ∧ later.1.registers.sp = r.sp := by
  intro r
  refine ⟨?_, ?_⟩
  · intro hopcode step entered
    obtain ⟨r', c, _⟩ := cpu
    obtain rfl : _ = true := hon
    have hstep : step = _ := run_jsr r' c ram hopcode
    have hcalled : Called (⟨r', c, true⟩, ram) entered := by
      rw [show entered = _ from congrArg Outcome.state hstep]
      exact called r' c ram
    refine ⟨congrArg Outcome.result hstep, hcalled, ?_⟩
    intro body hbody later back hreturn hsp hcells
    obtain ⟨hpopped, hrestored⟩ := hcalled.popped hsp hcells
    have hison : later.1.isOn = true := (isOn_afterSeries hbody entered).trans hcalled.isOn
    obtain ⟨⟨r'', c', _⟩, ram'⟩ := later
    obtain rfl : _ = true := hison
    have hback : back = _ := run_rts r'' c' ram' hreturn
    refine ⟨congrArg Outcome.result hback, ?_, congrArg (·.state.2) hback⟩
    have hbehind : r'.pc + 2 + 1 = r'.pc + 3 := by grind
    refine (congrArg (·.state.1.registers) hback).trans ?_
    show rtsRegisters r'' ram' = _
    rw [rtsRegisters, hpopped, hrestored, hbehind]
  · intro moves hfit seen later
    have hstart : Unreturned r.sp [] (cpu, ram) := ⟨hon, UInt8.add_zero _, trivial⟩
    refine ⟨?_, ?_⟩
    · intro hnested
      obtain ⟨left, hleft, hlater⟩ := hstart.run hfit hnested
      exact ⟨left, hleft, hlater.sp_eq⟩
    · intro callers landings hseen hlength hroom
      have hnested : Nested 0 seen := by
        rw [hseen]
        apply nested_calls
        · omega
        · rw [Nat.zero_add, hlength]
          exact nested_returns landings
      obtain ⟨left, hleft, hlater⟩ := hstart.run hfit hnested
      rw [show marks moves (cpu, ram) = _ from hseen, unreturned_calls, List.append_nil] at hleft
      have hlandings := landings_of_unreturned hleft
      obtain rfl : left = [] := by
        have hcount := congrArg List.length hlandings
        simp only [List.length_map, List.length_reverse, List.length_append] at hcount
        exact List.eq_nil_of_length_eq_zero (by omega)
      rw [List.map_nil, List.append_nil, List.map_reverse] at hlandings
      refine ⟨hlandings.symm, ?_⟩
      rw [← hlater.sp_eq]
      exact (UInt8.add_zero _).symm

/-- A processor about to do an instruction in the stack page, with two cells below its stack pointer. -/
def callingCpu : Cpu := ⟨{ Registers.powerOn with sp := 0x01, pc := 0x0100 }, 0, true⟩

/-- A call of a subroutine at $0010, which calls another one at $0020, which counts in a register. -/
def callingRam : Ram :=
  ((Ram.zeros.writeBlock 0x0100 [0x20, 0x10, 0x00]).writeBlock 0x0010
    [0x20, 0x20, 0x00, 0x60]).writeBlock 0x0020 [0xE8, 0x60]

def nestedMoves : List Move := [.call, .call, .work .step, .back, .back]

theorem fits_inx {state : Cpu × Ram} (hon : state.1.isOn = true)
    (h : state.2.read state.1.registers.pc = 0xE8) : (Move.work .step).Fits state := by
  obtain ⟨⟨r, c, _⟩, ram⟩ := state
  obtain rfl : _ = true := hon
  have hafter : (Move.work .step).after (⟨r, c, true⟩, ram) = _ :=
    congrArg Outcome.state (run_inx c h)
  rw [Move.Fits, hafter]
  exact ⟨rfl, rfl, fun _ _ _ => rfl⟩

theorem fit_nestedMoves : Fit nestedMoves (callingCpu, callingRam) := by
  refine ⟨(?_ : _ = (0x20 : UInt8)), (?_ : _ = (0x20 : UInt8)), fits_inx ?_ ?_,
    (?_ : _ = (0x60 : UInt8)), (?_ : _ = (0x60 : UInt8)), trivial⟩
  all_goals decide +kernel

/-- The first call pushes over its own bytes, and what the second one pushes goes round the end of the
page. Both return. -/
theorem subroutines_return_nested :
    callingCpu.isOn = true ∧ callingRam.read 0x0100 = 0x20 ∧
    (let entered := (Routine.step.run (callingCpu, callingRam)).state
     let later := afterSeries [.step, .step, .step] entered
     entered.1.registers.pc = 0x0010 ∧ entered.2.read 0x0101 = 0x01 ∧
       entered.2.read 0x0100 = 0x02 ∧ later.2.read later.1.registers.pc = 0x60 ∧
       (Routine.step.run later).state.1.registers.pc = 0x0103) ∧
    Fit nestedMoves (callingCpu, callingRam) ∧
    marks nestedMoves (callingCpu, callingRam)
      = [.called 0x0100, .called 0x0010, .returned 0x0013, .returned 0x0103] ∧
    Nested 0 (marks nestedMoves (callingCpu, callingRam)) ∧
    (∃ left, unreturned [] (marks nestedMoves (callingCpu, callingRam)) = some left) ∧
    (afterSeries (nestedMoves.map Move.request) (callingCpu, callingRam)).1.registers.sp = 0x01 := by
  obtain ⟨hone, hmany⟩ := subroutines_return callingCpu callingRam rfl
  have hmarks : marks nestedMoves (callingCpu, callingRam)
      = [.called 0x0100, .called 0x0010, .returned 0x0013, .returned 0x0103] := by decide +kernel
  obtain ⟨hnested, hreverse⟩ := hmany nestedMoves fit_nestedMoves
  have hopcode : callingRam.read 0x0100 = 0x20 := by decide +kernel
  have hdepth : Nested 0 (marks nestedMoves (callingCpu, callingRam)) := by
    rw [hmarks]
    simp [Nested]
  refine ⟨rfl, hopcode, ?_, fit_nestedMoves, hmarks, hdepth, ?_, ?_⟩
  · obtain ⟨-, hcalled, hreturns⟩ := hone hopcode
    obtain ⟨-, hback, -⟩ := hreturns [.step, .step, .step] (by simp [Request.switches])
      (by decide +kernel) (by decide +kernel) (by decide +kernel)
    refine ⟨by decide +kernel, hcalled.high, hcalled.low, by decide +kernel, ?_⟩
    exact congrArg Registers.pc hback
  · obtain ⟨left, hleft, -⟩ := hnested hdepth
    exact ⟨left, hleft⟩
  · exact (hreverse [0x0100, 0x0010] [0x0013, 0x0103] hmarks rfl (by decide)).2

end Cpu

end NesMachine
