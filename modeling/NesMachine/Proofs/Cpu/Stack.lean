import NesMachine.Proofs.Cpu.Accesses
import NesMachine.Proofs.Cpu.Series

/-!
# `NesMachine/Proofs/Cpu/Stack.lean` — a page of memory as a stack

The processor's stack is a page of memory and a byte that means a cell of it. Nothing there says how
many bytes are on the stack: the pointer goes round, and a byte that was popped is still in its
cell. What makes it a stack is how it is used. As long as no more is popped than was pushed, and
there are never more than 256 bytes on it, every pop answers what a list of bytes would.

`Stacked` ties the two together. It is kept by the push and the pop of one byte (`Stacked.push`,
`Stacked.pop`), and a word is two bytes.
-/

set_option autoImplicit false

namespace NesMachine

theorem stackCell_inj {p q : UInt8} : stackCell p = stackCell q ↔ p = q := by
  constructor
  · intro h
    have hlow := congrArg lowByte h
    simpa [stackCell] using hlow
  · exact congrArg stackCell

theorem toNat_stackCell (p : UInt8) : (stackCell p).toNat = 256 + p.toNat := by
  rw [stackCell, toNat_word]
  exact Nat.add_comm p.toNat 256

/-! ## Words in numbers -/

theorem ofNat_mod_eq_lowByte (w : UInt16) : UInt8.ofNat (w.toNat % 256) = lowByte w := by
  rw [← toNat_lowByte, UInt8.ofNat_toNat]

theorem ofNat_div_eq_highByte (w : UInt16) : UInt8.ofNat (w.toNat / 256) = highByte w := by
  rw [← toNat_highByte, UInt8.ofNat_toNat]

theorem ofNat_eq_word (low high : UInt8) :
    UInt16.ofNat (low.toNat + 256 * high.toNat) = word low high := by
  rw [← toNat_word, UInt16.ofNat_toNat]

/-! ## The pointer goes round -/

theorem sub_ofNat_succ (p : UInt8) (n : Nat) : p - .ofNat (n + 1) = p - .ofNat n - 1 := by
  rw [UInt8.ofNat_add]
  grind

theorem sub_one_sub_ofNat (p : UInt8) (n : Nat) : p - 1 - .ofNat n = p - .ofNat (n + 1) := by
  rw [UInt8.ofNat_add]
  grind

theorem sub_one_add_ofNat_succ (p : UInt8) (n : Nat) : p - 1 + .ofNat (n + 1) = p + .ofNat n := by
  rw [UInt8.ofNat_add]
  grind

theorem add_ofNat_ne (p : UInt8) {n : Nat} (hpos : 0 < n) (hlt : n < 256) : p + .ofNat n ≠ p := by
  intro h
  have hnumber := congrArg UInt8.toNat h
  rw [UInt8.toNat_add, UInt8.toNat_ofNat'] at hnumber
  have := p.toNat_lt
  omega

namespace Cpu

/-! ## A list in place of the stack -/

/-- What can be asked of the stack. -/
inductive StackRequest where
  | push (byte : UInt8)
  | pop
  | pushWord (value : UInt16)
  | popWord

def StackRequest.toRequest : StackRequest → Request
  | push byte => .push byte
  | pop => .pop
  | pushWord value => .pushWord value
  | popWord => .popWord

/-- What a request comes to on a list of bytes, the last one pushed first. The high byte of a word
is pushed first, and so the low byte is popped first. A list that is too short answers nothing. -/
def StackRequest.onList : StackRequest → List UInt8 → Option (Answer × List UInt8)
  | push byte, bytes => some (.nothing, byte :: bytes)
  | pop, byte :: bytes => some (.byte byte, bytes)
  | pushWord value, bytes =>
    some (.nothing, .ofNat (value.toNat % 256) :: .ofNat (value.toNat / 256) :: bytes)
  | popWord, low :: high :: bytes => some (.word (.ofNat (low.toNat + 256 * high.toNat)), bytes)
  | _, _ => none

/-- The answers of a list of bytes to a series of requests, and the list afterwards. -/
def listAnswers : List StackRequest → List UInt8 → Option (List Answer × List UInt8)
  | [], bytes => some ([], bytes)
  | request :: requests, bytes => do
    let (answer, bytes) ← request.onList bytes
    let (answers, bytes) ← listAnswers requests bytes
    return (answer :: answers, bytes)

/-- The bytes that a request pushes, less those that it pops. -/
def StackRequest.growth : StackRequest → Int
  | push _ => 1
  | pop => -1
  | pushWord _ => 2
  | popWord => -2

/-- The bytes pushed by a series of requests, less those popped. -/
def stackDepth : List StackRequest → Int
  | [] => 0
  | request :: requests => request.growth + stackDepth requests

/-! ## The page holds the list -/

/-- The processor with another stack pointer. -/
def withSp (cpu : Cpu) (sp : UInt8) : Cpu :=
  { cpu with registers := { cpu.registers with sp := sp } }

/-- The processor and the memory in `state` are `start` and `cells` after `bytes` have come onto the
stack, the last one pushed first: the bytes are in the cells above the stack pointer, and nothing but
the stack pointer and the stack page has changed. -/
structure Stacked (start : Cpu) (cells : Ram) (bytes : List UInt8) (state : Cpu × Ram) : Prop where
  cpu : state.1 = start.withSp (start.registers.sp - .ofNat bytes.length)
  fits : bytes.length ≤ 256
  holds : ∀ i byte, bytes[i]? = some byte →
    state.2.read (stackCell (start.registers.sp - .ofNat bytes.length + .ofNat (i + 1))) = byte
  outside : ∀ address, address.toNat < 0x100 ∨ 0x200 ≤ address.toNat →
    state.2.read address = cells.read address

variable {start : Cpu} {cells : Ram} {bytes : List UInt8} {state : Cpu × Ram}

theorem run_push (hon : start.isOn = true) (sp byte : UInt8) (ram : Ram) :
    (Routine.push byte).run (start.withSp sp, ram)
      = ⟨.ok (), (start.withSp (sp - 1), ram.write (stackCell sp) byte), []⟩ := by
  obtain ⟨r, c, _⟩ := start
  obtain rfl : _ = true := hon
  rfl

theorem run_pop (hon : start.isOn = true) (sp : UInt8) (ram : Ram) :
    Routine.pop.run (start.withSp sp, ram)
      = ⟨.ok (ram.read (stackCell (sp + 1))), (start.withSp (sp + 1), ram), []⟩ := by
  obtain ⟨r, c, _⟩ := start
  obtain rfl : _ = true := hon
  rfl

theorem stacked_nil (start : Cpu) (cells : Ram) : Stacked start cells [] (start, cells) := by
  refine ⟨?_, Nat.zero_le 256, ?_, fun _ _ => rfl⟩
  · simp [withSp]
  · intro i byte h
    simp at h

/-- **A byte that is pushed lies on those below it**, as long as there is a cell left. -/
theorem Stacked.push (h : Stacked start cells bytes state) (hon : start.isOn = true)
    (hroom : bytes.length < 256) (byte : UInt8) :
    ∃ later, (Routine.push byte).run state = ⟨.ok (), later, []⟩ ∧
      Stacked start cells (byte :: bytes) later := by
  obtain ⟨_, ram⟩ := state
  obtain ⟨rfl, -, hholds, houtside⟩ := h
  refine ⟨_, run_push hon _ byte ram, ?_, hroom, ?_, ?_⟩
  · rw [List.length_cons, sub_ofNat_succ]
  · intro i other hother
    rw [List.length_cons, sub_ofNat_succ, sub_one_add_ofNat_succ]
    cases i with
    | zero => simpa using hother
    | succ i =>
      have hlt := (List.getElem?_eq_some_iff.mp hother).1
      rw [List.length_cons] at hlt
      rw [Ram.read_write_other]
      · exact hholds i other hother
      · rw [Ne, stackCell_inj]
        exact (add_ofNat_ne _ (Nat.succ_pos i) (by omega)).symm
  · intro address haddress
    rw [Ram.read_write_other]
    · exact houtside address haddress
    · rintro rfl
      have hlt := (start.registers.sp - .ofNat bytes.length).toNat_lt
      rw [toNat_stackCell] at haddress
      omega

/-- **The byte that is popped is the one that was pushed last.** -/
theorem Stacked.pop {byte : UInt8} (h : Stacked start cells (byte :: bytes) state)
    (hon : start.isOn = true) :
    ∃ later, Routine.pop.run state = ⟨.ok byte, later, []⟩ ∧ Stacked start cells bytes later := by
  obtain ⟨_, ram⟩ := state
  obtain ⟨rfl, hfits, hholds, houtside⟩ := h
  dsimp only at hholds houtside
  have hup : start.registers.sp - .ofNat (byte :: bytes).length + 1
      = start.registers.sp - .ofNat bytes.length := by
    rw [List.length_cons, sub_ofNat_succ, UInt8.sub_add_cancel]
  have hread : ram.read (stackCell (start.registers.sp - .ofNat bytes.length)) = byte := by
    rw [← hup]
    exact hholds 0 byte rfl
  refine ⟨(start.withSp (start.registers.sp - .ofNat bytes.length), ram), ?_, rfl, ?_, ?_, houtside⟩
  · rw [run_pop hon, hup, hread]
  · rw [List.length_cons] at hfits
    omega
  · intro i other hother
    have hbelow := hholds (i + 1) other hother
    rw [List.length_cons, sub_ofNat_succ, sub_one_add_ofNat_succ] at hbelow
    exact hbelow

/-- The high byte goes onto the stack before the low byte. -/
theorem Stacked.pushWord (h : Stacked start cells bytes state) (hon : start.isOn = true)
    (hroom : bytes.length < 255) (value : UInt16) :
    ∃ later, (Routine.pushWord value).run state = ⟨.ok (), later, []⟩ ∧
      Stacked start cells (lowByte value :: highByte value :: bytes) later := by
  obtain ⟨between, hhigh, h⟩ := h.push hon (Nat.lt_succ_of_lt hroom) (highByte value)
  obtain ⟨later, hlow, h⟩ := h.push hon (Nat.succ_lt_succ hroom) (lowByte value)
  refine ⟨later, ?_, h⟩
  rw [Routine.pushWord, Routine.run_bind, Action.bind_apply, hhigh]
  exact congrArg (Outcome.after []) hlow

theorem Stacked.popWord {low high : UInt8} (h : Stacked start cells (low :: high :: bytes) state)
    (hon : start.isOn = true) :
    ∃ later, Routine.popWord.run state = ⟨.ok (word low high), later, []⟩ ∧
      Stacked start cells bytes later := by
  obtain ⟨between, hlow, h⟩ := h.pop hon
  obtain ⟨later, hhigh, h⟩ := h.pop hon
  refine ⟨later, ?_, h⟩
  rw [Routine.popWord, Routine.run_bind, Action.bind_apply, hlow]
  show (Routine.run _ between).after [] = _
  rw [Routine.run_bind, Action.bind_apply, hhigh]
  rfl

/-! ## The answers are those of the list -/

/-- A request that pops no more than there is, and leaves no more than there is room for, is answered
as the list answers it. -/
theorem Stacked.request (h : Stacked start cells bytes state) (hon : start.isOn = true)
    (request : StackRequest) (hlow : 0 ≤ bytes.length + request.growth)
    (hhigh : bytes.length + request.growth ≤ 256) :
    ∃ answer rest later, request.onList bytes = some (answer, rest) ∧
      (rest.length : Int) = bytes.length + request.growth ∧
      request.toRequest.routine.run state = ⟨.ok answer, later, []⟩ ∧
      Stacked start cells rest later := by
  have hanswer {α : Type} {r : Routine α} {value : α} {later : Cpu × Ram}
      (hr : r.run state = ⟨.ok value, later, []⟩) (answer : α → Answer) :
      (r >>= fun value => pure (answer value)).run state = ⟨.ok (answer value), later, []⟩ := by
    rw [Routine.run_bind, Action.bind_apply, hr]
    rfl
  cases request with
  | push byte =>
    simp only [StackRequest.growth] at hhigh ⊢
    obtain ⟨later, hrun, hlater⟩ := h.push hon (by omega) byte
    exact ⟨.nothing, byte :: bytes, later, rfl, rfl, hanswer hrun _, hlater⟩
  | pushWord value =>
    simp only [StackRequest.growth] at hhigh ⊢
    obtain ⟨later, hrun, hlater⟩ := h.pushWord hon (by omega) value
    refine ⟨.nothing, lowByte value :: highByte value :: bytes, later, ?_, ?_, hanswer hrun _,
      hlater⟩
    · rw [StackRequest.onList, ofNat_mod_eq_lowByte, ofNat_div_eq_highByte]
    · rfl
  | pop =>
    simp only [StackRequest.growth] at hlow ⊢
    cases bytes with
    | nil => simp at hlow
    | cons byte rest =>
      obtain ⟨later, hrun, hlater⟩ := h.pop hon
      refine ⟨.byte byte, rest, later, rfl, ?_, hanswer hrun _, hlater⟩
      rw [List.length_cons]
      omega
  | popWord =>
    simp only [StackRequest.growth] at hlow ⊢
    match bytes with
    | [] => simp at hlow
    | [byte] => simp at hlow
    | low :: high :: rest =>
      obtain ⟨later, hrun, hlater⟩ := h.popWord hon
      refine ⟨.word (word low high), rest, later, ?_, ?_, hanswer hrun _, hlater⟩
      · rw [StackRequest.onList, ofNat_eq_word]
      · rw [List.length_cons, List.length_cons]
        omega

/-- With `count` bytes there at first, the requests never pop more than there is, and never leave
more than 256. -/
def KeepsWithin (count : Nat) (requests : List StackRequest) : Prop :=
  ∀ n, 0 ≤ count + stackDepth (requests.take n) ∧ count + stackDepth (requests.take n) ≤ 256

/-- **A series is answered as the list answers it.** The induction is on the requests, and what
carries it is that the page holds the list. -/
theorem Stacked.series {requests : List StackRequest} (h : Stacked start cells bytes state)
    (hon : start.isOn = true) (hdepth : KeepsWithin bytes.length requests) :
    ∃ answers rest, listAnswers requests bytes = some (answers, rest) ∧
      (rest.length : Int) = bytes.length + stackDepth requests ∧
      results (requests.map StackRequest.toRequest) state = answers.map .ok ∧
      Stacked start cells rest (afterSeries (requests.map StackRequest.toRequest) state) := by
  induction requests generalizing bytes state with
  | nil => exact ⟨[], bytes, rfl, by simp [stackDepth], rfl, h⟩
  | cons request requests ih =>
    have hfirst := hdepth 1
    rw [List.take_succ_cons, List.take_zero, stackDepth, stackDepth, Int.add_zero] at hfirst
    obtain ⟨answer, rest, later, hlist, hlength, hrun, hlater⟩ :=
      h.request hon request hfirst.1 hfirst.2
    have hrest : KeepsWithin rest.length requests := by
      intro n
      have hboth := hdepth (n + 1)
      rw [List.take_succ_cons, stackDepth] at hboth
      omega
    obtain ⟨answers, last, hlists, hlast, hresults, hheld⟩ := ih hlater hrest
    refine ⟨answer :: answers, last, ?_, ?_, ?_, ?_⟩
    · simp [listAnswers, hlist, hlists]
    · rw [stackDepth]
      omega
    · simp [results, hrun, hresults]
    · simpa [afterSeries, hrun] using hheld

/-- **The stack page is a stack.**

Bytes and words are pushed and popped in any order and with any values, from any stack pointer on. As
long as never more bytes are popped than were pushed, and there are never more than 256, every
request succeeds and answers what it answers on a list of bytes that is empty at first. After each
of them the stack pointer is as many bytes below its first value as there are on the list, round the
page, and nothing else has changed but cells of the page. -/
theorem stack_page_is_list (requests : List StackRequest) (cpu : Cpu) (ram : Ram)
    (hon : cpu.isOn = true)
    (hdepth : ∀ n, 0 ≤ stackDepth (requests.take n) ∧ stackDepth (requests.take n) ≤ 256) :
    ∀ n,
      let made := requests.take n
      let asked := made.map StackRequest.toRequest
      let later := afterSeries asked (cpu, ram)
      (∃ answers bytes, listAnswers made [] = some (answers, bytes) ∧
        results asked (cpu, ram) = answers.map .ok ∧ (bytes.length : Int) = stackDepth made) ∧
      (later.1.registers.sp.toNat : Int) = (cpu.registers.sp.toNat - stackDepth made) % 256 ∧
      later.1 = cpu.withSp later.1.registers.sp ∧
      ∀ address, address.toNat < 0x100 ∨ 0x200 ≤ address.toNat →
        later.2.read address = ram.read address := by
  intro n made asked later
  have hkeeps : KeepsWithin 0 made := by
    intro m
    simpa [made, List.take_take] using hdepth (min m n)
  obtain ⟨answers, bytes, hlist, hlength, hresults, hheld⟩ :=
    (stacked_nil cpu ram).series hon hkeeps
  rw [List.length_nil, Int.natCast_zero, Int.zero_add] at hlength
  have hsp : later.1.registers.sp = cpu.registers.sp - .ofNat bytes.length :=
    congrArg (·.registers.sp) hheld.cpu
  refine ⟨⟨answers, bytes, hlist, hresults, hlength⟩, ?_, ?_, hheld.outside⟩
  · have hlt := cpu.registers.sp.toNat_lt
    have hfits := hheld.fits
    rw [hsp, UInt8.toNat_sub, UInt8.toNat_ofNat', ← hlength]
    omega
  · rw [hsp]
    exact hheld.cpu

/-- A word, a byte on it, and then a word that is the byte and one half of the first word. -/
def mixedRequests : List StackRequest := [.pushWord 0x1234, .push 0x56, .popWord, .pop]

def lowStackCpu : Cpu := ⟨{ Registers.powerOn with sp := 0 }, 0, true⟩

/-- The first word lies across the end of the page: one byte in its first cell, one in its last. -/
theorem stack_page_of_mixedRequests :
    lowStackCpu.isOn = true ∧
    (∀ n, 0 ≤ stackDepth (mixedRequests.take n) ∧ stackDepth (mixedRequests.take n) ≤ 256) ∧
    results (mixedRequests.map StackRequest.toRequest) (lowStackCpu, Ram.zeros)
      = [.ok .nothing, .ok .nothing, .ok (.word 0x3456), .ok (.byte 0x12)] ∧
    (afterSeries (mixedRequests.map StackRequest.toRequest)
      (lowStackCpu, Ram.zeros)).1.registers.sp = 0 := by
  have hdepth : ∀ n,
      0 ≤ stackDepth (mixedRequests.take n) ∧ stackDepth (mixedRequests.take n) ≤ 256 := by
    intro n
    match n with
    | 0 => decide
    | 1 => decide
    | 2 => decide
    | 3 => decide
    | n + 4 =>
      simp [mixedRequests]
      decide
  obtain ⟨⟨answers, bytes, hlist, hresults, -⟩, hsp, -⟩ :=
    stack_page_is_list mixedRequests lowStackCpu Ram.zeros rfl hdepth 4
  rw [show mixedRequests.take 4 = mixedRequests from rfl] at hlist hresults hsp
  have hanswers : listAnswers mixedRequests []
      = some ([.nothing, .nothing, .word 0x3456, .byte 0x12], []) := rfl
  cases hanswers.symm.trans hlist
  refine ⟨rfl, hdepth, hresults, ?_⟩
  apply UInt8.toNat_inj.mp
  exact Int.ofNat_inj.mp hsp

end Cpu

end NesMachine
