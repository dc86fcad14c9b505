import NesMachine.Proofs.Cpu.Cost
import NesMachine.Proofs.Cpu.Series

/-!
# `NesMachine/Proofs/Cpu/Countdown.lean` — a loop that counts down

The plainest loop there is: load a register, take one from it, and go back as long as it is not zero.
How often it goes round, and what that costs, can be worked out on paper from the table of the
instructions, and then a program that counts is a program that waits for a known time.

Two things are easy to get wrong on paper. The first comparison comes after the first subtraction, so a
count of zero goes round 256 times. And the branch is looked at when the program counter is already
behind it, so it is the page there that is compared with the one of the target, and not the page of the
branch itself.

The rounds are an induction on how many are to go (`reaches_countedDown`); one round is two steps that
leave the loop in memory as it is (`reaches_round`). The place of the loop is arbitrary throughout, and
may go round the end of memory.
-/

set_option autoImplicit false

namespace NesMachine

/-- The cycle that it takes more to go from one page to another. -/
def pageChange (v w : UInt16) : Nat := if v.toNat / 256 = w.toNat / 256 then 0 else 1

namespace Cpu

/-! ## The three instructions -/

section

variable {ram : Ram} {r : Registers} (c : UInt32)

theorem run_ldx (h : ram.read r.pc = 0xA2) : Routine.step.run (⟨r, c, true⟩, ram)
    = ⟨.ok 2, (⟨{ r with pc := r.pc + 2 }.setX (ram.read (r.pc + 1)), c + 2, true⟩, ram), []⟩ := by
  have hi : Instruction.decode (ram.read r.pc) = some ⟨0xA2, .read .ldx, .immediate, 2, false⟩ := by
    rw [h]
    decide +kernel
  have hpc : r.pc + 1 + 1 = r.pc + 2 := by grind
  rw [Routine.run_step c hi, ← hpc]
  rfl

theorem run_dex (h : ram.read r.pc = 0xCA) : Routine.step.run (⟨r, c, true⟩, ram)
    = ⟨.ok 2, (⟨{ r with pc := r.pc + 1 }.setX (r.x - 1), c + 2, true⟩, ram), []⟩ := by
  have hi : Instruction.decode (ram.read r.pc) = some ⟨0xCA, .register .dex, .implied, 2, false⟩ := by
    rw [h]
    decide +kernel
  have hpc : r.pc + 1 + 0 = r.pc + 1 := UInt16.add_zero _
  rw [Routine.run_step c hi, ← hpc]
  rfl

/-- A branch back by three is to what stands one before it. -/
theorem branchTarget_of_back {start : UInt16} (hpc : r.pc = start + 1)
    (hback : ram.read (start + 2) = 0xFD) :
    AddressingMode.branchTarget ram r = start.toNat := by
  have hlt := start.toNat_lt
  have hnumber : r.pc.toNat = (start.toNat + 1) % 65536 := by
    rw [hpc]
    exact UInt16.toNat_add start 1
  have hoffset : AddressingMode.byteAfter ram r = 0xFD := by
    rw [AddressingMode.byteAfter, hpc, UInt16.add_assoc]
    exact hback
  rw [AddressingMode.branchTarget, AddressingMode.operandByte_one, hoffset, hnumber]
  show ((start.toNat + 1) % 65536 + 2 + (253 + 65280)) % 65536 = start.toNat
  omega

/-- The branch of the loop goes on behind itself if the last result was zero, and to the start of the
loop otherwise. -/
theorem run_bne {start : UInt16} (hpc : r.pc = start + 1) (hbne : ram.read (start + 1) = 0xD0)
    (hback : ram.read (start + 2) = 0xFD) :
    Routine.step.run (⟨r, c, true⟩, ram)
      = if r.p.zero = true then ⟨.ok 2, (⟨{ r with pc := start + 3 }, c + 2, true⟩, ram), []⟩
        else ⟨.ok (3 + pageChange start (start + 3)),
          (⟨{ r with pc := start }, c + .ofNat (3 + pageChange start (start + 3)), true⟩, ram),
            []⟩ := by
  have hi : Instruction.decode (ram.read r.pc) = some ⟨0xD0, .branch .bne, .relative, 2, false⟩ := by
    rw [hpc, hbne]
    decide +kernel
  have hlisted := (Instruction.decode_eq_some_iff.mp hi).1
  have htaken : BranchOp.bne.taken r.p = !r.p.zero := rfl
  have hbehind : r.pc + 2 = start + 3 := by
    rw [hpc, UInt16.add_assoc]
    rfl
  have hnumber : (r.pc.toNat + 2) % 65536 = (start + 3).toNat := by
    rw [← hbehind]
    exact (UInt16.toNat_add r.pc 2).symm
  have hcycles : 2 + (if (start + 3).toNat / 256 = start.toNat / 256 then 1 else 2)
      = 3 + pageChange start (start + 3) := by
    rw [pageChange]
    by_cases hsame : start.toNat / 256 = (start + 3).toNat / 256
    · rw [if_pos hsame, if_pos hsame.symm]
    · rw [if_neg hsame, if_neg (Ne.symm hsame)]
  rw [Routine.run_step c hi, Instruction.cost_eq hlisted, Instruction.surcharge,
    Instruction.effect_branch hlisted rfl, branchTarget_of_back hpc hback, hbehind, hnumber]
  simp only [htaken]
  cases r.p.zero with
  | true => rfl
  | false =>
    simp only [Bool.not_false, if_true, hcycles, UInt16.ofNat_toNat]
    rfl

end

/-! ## The loop -/

/-- The registers when the loop is left. -/
def countedDown (r : Registers) (exit : UInt16) : Registers :=
  { r with x := 0, p := { r.p with zero := true, negative := false }, pc := exit }

section

variable {ram : Ram} {r : Registers} (c : UInt32)

/-- The loop is in memory: `DEX` at its start, and then `BNE` back to it. -/
structure Countdown (ram : Ram) (start : UInt16) : Prop where
  dex : ram.read start = 0xCA
  bne : ram.read (start + 1) = 0xD0
  back : ram.read (start + 2) = 0xFD

/-- A round that leaves the register at something else than zero goes back to the start. -/
theorem reaches_round (h : Countdown ram r.pc) (hx : r.x ≠ 1) {count rest : Nat} {later : Cpu × Ram}
    (hrest : Reaches (r.pc + 3) count rest
      (⟨r.setX (r.x - 1), c + 2 + .ofNat (3 + pageChange r.pc (r.pc + 3)), true⟩, ram) later) :
    Reaches (r.pc + 3) (count + 2) (2 + (3 + pageChange r.pc (r.pc + 3) + rest))
      (⟨r, c, true⟩, ram) later := by
  have hnext : ¬ (r.x - 1 == 0) = true := by grind
  have hbranch := run_bne (c + 2) (r := { r with pc := r.pc + 1 }.setX (r.x - 1)) rfl h.bne h.back
  have hbranch := hbranch.trans (if_neg hnext)
  refine .step ?_ (run_dex c h.dex) (.step ?_ hbranch hrest)
  · grind
  · show r.pc + 1 ≠ r.pc + 3
    grind

/-- The round that leaves the register at zero is the last one. -/
theorem reaches_lastRound (h : Countdown ram r.pc) (hx : r.x = 1) :
    Reaches (r.pc + 3) 2 4 (⟨r, c, true⟩, ram)
      (⟨countedDown r (r.pc + 3), c + 2 + 2, true⟩, ram) := by
  have hlast : (r.x - 1 == 0) = true := by grind
  have hbranch := run_bne (c + 2) (r := { r with pc := r.pc + 1 }.setX (r.x - 1)) rfl h.bne h.back
  have hbranch := hbranch.trans (if_pos hlast)
  have hlater : countedDown r (r.pc + 3) = { r.setX (r.x - 1) with pc := r.pc + 3 } := by
    rw [hx]
    rfl
  rw [hlater]
  refine .step ?_ (run_dex c h.dex) (.step ?_ hbranch (.arrived rfl))
  · grind
  · show r.pc + 1 ≠ r.pc + 3
    grind

/-- **The rounds of the loop**, when the register says that there are `n + 1` of them to go.

The induction is on the rounds. A round takes one from the register and leaves the loop where it is in
memory, so what it goes on with is the same loop with a round less. -/
theorem reaches_countedDown {n : Nat} (hn : n < 256) (h : Countdown ram r.pc)
    (hx : r.x = .ofNat (n + 1)) :
    let cycles := 4 + (5 + pageChange r.pc (r.pc + 3)) * n
    Reaches (r.pc + 3) (2 * (n + 1)) cycles (⟨r, c, true⟩, ram)
      (⟨countedDown r (r.pc + 3), c + .ofNat cycles, true⟩, ram) := by
  induction n generalizing r c with
  | zero =>
    intro cycles
    have hcount : c + .ofNat cycles = c + 2 + 2 := by
      rw [UInt32.add_assoc]
      rfl
    rw [hcount]
    exact reaches_lastRound c h hx
  | succ n ih =>
    intro cycles
    let round := 3 + pageChange r.pc (r.pc + 3)
    let rest := 4 + (5 + pageChange r.pc (r.pc + 3)) * n
    have hsum : cycles = 2 + (round + rest) := by
      show 4 + (5 + pageChange r.pc (r.pc + 3)) * (n + 1)
        = 2 + (3 + pageChange r.pc (r.pc + 3) + (4 + (5 + pageChange r.pc (r.pc + 3)) * n))
      rw [Nat.mul_succ]
      omega
    have hspent : c + .ofNat cycles = c + 2 + .ofNat round + .ofNat rest := by
      rw [hsum, UInt32.ofNat_add, UInt32.ofNat_add, ← UInt32.add_assoc, ← UInt32.add_assoc]
      rfl
    have hx' : (r.setX (r.x - 1)).x = .ofNat (n + 1) := by
      show r.x - 1 = .ofNat (n + 1)
      rw [hx, UInt8.ofNat_add (n + 1) 1]
      exact UInt8.add_sub_cancel _ _
    have hmore : r.x ≠ 1 := by
      intro hone
      have hzero : (0 : UInt8) = .ofNat (n + 1) := by
        rw [← hx']
        show 0 = r.x - 1
        rw [hone]
        rfl
      have hnumber := congrArg UInt8.toNat hzero
      rw [UInt8.toNat_ofNat', Nat.mod_eq_of_lt hn] at hnumber
      exact absurd hnumber (by simp)
    have hless := ih (r := r.setX (r.x - 1)) (c + 2 + .ofNat round) (Nat.lt_of_succ_lt hn) h hx'
    rw [hspent, hsum]
    exact reaches_round c h hmore hless

end

/-! ## The whole program -/

theorem cells_of_code {ram : Ram} {origin : UInt16} {n : UInt8}
    (h : ram.readBlock origin 5 = [0xA2, n, 0xCA, 0xD0, 0xFD]) :
    ram.read origin = 0xA2 ∧ ram.read (origin + 1) = n ∧ Countdown ram (origin + 2) := by
  have hcell (i : Nat) (hi : i < 5) :
      ram.read (origin + .ofNat i) = [0xA2, n, 0xCA, 0xD0, 0xFD].getD i 0 := by
    rw [← h]
    simp [Ram.readBlock, hi]
  refine ⟨?_, hcell 1 (by decide), hcell 2 (by decide), ?_, ?_⟩
  · rw [← UInt16.add_zero origin]
    exact hcell 0 (by decide)
  · rw [UInt16.add_assoc]
    exact hcell 3 (by decide)
  · rw [UInt16.add_assoc]
    exact hcell 4 (by decide)

/-- The rounds that a count means. It is their number modulo 256, and there is a round at least. -/
theorem exists_rounds (n : UInt8) :
    ∃ m < 256, (if n = 0 then 256 else n.toNat) = m + 1 ∧ n = .ofNat (m + 1) := by
  have hlt := n.toNat_lt
  by_cases hzero : n = 0
  · exact ⟨255, by decide, if_pos hzero, hzero⟩
  · have hpositive : n.toNat ≠ 0 := fun h => hzero (UInt8.toNat_inj.mp h)
    have hsucc : n.toNat - 1 + 1 = n.toNat :=
      Nat.sub_add_cancel (Nat.one_le_iff_ne_zero.mpr hpositive)
    refine ⟨n.toNat - 1, by omega, ?_, ?_⟩
    · rw [if_neg hzero, hsucc]
    · rw [hsucc, UInt8.ofNat_toNat]

theorem reaches_end {ram : Ram} {r : Registers} (c : UInt32) {n : UInt8} {m : Nat} (hm : m < 256)
    (hn : n = .ofNat (m + 1)) (hcode : ram.readBlock r.pc 5 = [0xA2, n, 0xCA, 0xD0, 0xFD]) :
    let cycles := 2 + (4 + (5 + pageChange (r.pc + 2) (r.pc + 5)) * m)
    Reaches (r.pc + 5) (2 * (m + 1) + 1) cycles (⟨r, c, true⟩, ram)
      (⟨countedDown r (r.pc + 5), c + .ofNat cycles, true⟩, ram) := by
  intro cycles
  obtain ⟨hldx, hcount, hloop⟩ := cells_of_code hcode
  let loaded : Registers := { r with pc := r.pc + 2 }.setX n
  have hfirst := run_ldx c hldx
  rw [hcount] at hfirst
  have hexit : loaded.pc + 3 = r.pc + 5 := by
    show r.pc + 2 + 3 = r.pc + 5
    rw [UInt16.add_assoc]
    rfl
  have hrest := reaches_countedDown (r := loaded) (c + 2) hm hloop hn
  rw [hexit] at hrest
  have houtside : r.pc ≠ r.pc + 5 := by grind
  have hspent : c + .ofNat cycles
      = c + 2 + .ofNat (4 + (5 + pageChange (r.pc + 2) (r.pc + 5)) * m) := by
    rw [UInt32.ofNat_add, ← UInt32.add_assoc]
    rfl
  rw [hspent]
  exact .step houtside hfirst hrest

/-- **A loop that counts down takes the steps and the cycles that one counts on paper.**

The program is `LDX #n`, `DEX` and `BNE` back to the `DEX`, anywhere in memory, also across the end of a
page or of memory. The register goes round before the first comparison with zero, so a count of zero
means 256 rounds. Every round is two steps, and the branch is taken in all rounds but the last one; it
takes a cycle more if the loop and what stands behind it are in different pages.

All steps succeed, the last one is the first that leads behind the program, and then the register is
zero, the flags say so, and nothing else has changed. -/
theorem counted_loop (cpu : Cpu) (ram : Ram) (n : UInt8) (hon : cpu.isOn = true)
    (hcode : ram.readBlock cpu.registers.pc 5 = [0xA2, n, 0xCA, 0xD0, 0xFD]) :
    let before := cpu.registers
    let rounds := if n = 0 then 256 else n.toNat
    let further := if (before.pc + 2).toNat / 256 = (before.pc + 5).toNat / 256 then 0 else 1
    let count := 1 + 2 * rounds
    let cycles := 2 + 2 * rounds + (3 + further) * (rounds - 1) + 2
    (∃ costs : List Nat,
      results (List.replicate count .step) (cpu, ram) = costs.map (fun cost => .ok (.cycles cost)) ∧
        costs.sum = cycles) ∧
    (∀ m < count,
      (afterSeries (List.replicate m .step) (cpu, ram)).1.registers.pc ≠ before.pc + 5) ∧
    afterSeries (List.replicate count .step) (cpu, ram)
      = (⟨{ before with
            x := 0
            p := { before.p with zero := true, negative := false }
            pc := before.pc + 5 },
          cpu.cycles + .ofNat cycles, true⟩, ram) := by
  obtain ⟨r, c, on⟩ := cpu
  obtain rfl : on = true := hon
  intro before rounds further count cycles
  obtain ⟨m, hm, hrounds, hn⟩ := exists_rounds n
  have hcount : count = 2 * (m + 1) + 1 := by
    show 1 + 2 * rounds = _
    rw [show rounds = m + 1 from hrounds, Nat.add_comm]
  have hcycles : cycles = 2 + (4 + (5 + pageChange (r.pc + 2) (r.pc + 5)) * m) := by
    have hround : (5 + further) * m = 2 * m + (3 + further) * m := by
      rw [← Nat.add_mul, ← Nat.add_assoc]
    show 2 + 2 * rounds + (3 + further) * (rounds - 1) + 2 = 2 + (4 + (5 + further) * m)
    rw [hround, show rounds = m + 1 from hrounds, Nat.add_sub_cancel]
    omega
  have hreaches : Reaches (r.pc + 5) count cycles (⟨r, c, true⟩, ram)
      (⟨countedDown r (r.pc + 5), c + .ofNat cycles, true⟩, ram) := by
    rw [hcycles, hcount]
    exact reaches_end c hm hn hcode
  exact ⟨hreaches.exists_costs, fun m hm => hreaches.pc_ne hm, hreaches.steps.reach⟩

def countingCpu : Cpu := ⟨{ Registers.powerOn with a := 0x07, pc := 0xFFFD }, 0, true⟩

/-- A count of zero, in a program that begins before the end of memory and ends behind its start. -/
def countingRam : Ram := Ram.zeros.writeBlock 0xFFFD [0xA2, 0x00, 0xCA, 0xD0, 0xFD]

/-- Over the end of memory, which is the end of a page: 256 rounds, 513 steps and 1536 cycles. -/
theorem counted_loop_over_the_end :
    countingCpu.isOn = true ∧
    countingRam.readBlock countingCpu.registers.pc 5 = [0xA2, 0x00, 0xCA, 0xD0, 0xFD] ∧
    (∃ costs : List Nat,
      results (List.replicate 513 .step) (countingCpu, countingRam)
        = costs.map (fun cost => .ok (.cycles cost)) ∧ costs.sum = 1536) ∧
    (∀ m < 513, (afterSeries (List.replicate m .step) (countingCpu, countingRam)).1.registers.pc
      ≠ 0x0002) ∧
    afterSeries (List.replicate 513 .step) (countingCpu, countingRam)
      = (⟨{ countingCpu.registers with
            x := 0
            p := { countingCpu.registers.p with zero := true, negative := false }
            pc := 0x0002 }, 1536, true⟩, countingRam) := by
  have hcode : countingRam.readBlock countingCpu.registers.pc 5 = [0xA2, 0x00, 0xCA, 0xD0, 0xFD] := by
    simp [countingRam, countingCpu, Ram.readBlock, Ram.writeBlock, Ram.read_write, List.range_succ]
  exact ⟨rfl, hcode, counted_loop countingCpu countingRam 0 rfl hcode⟩

end Cpu

end NesMachine
