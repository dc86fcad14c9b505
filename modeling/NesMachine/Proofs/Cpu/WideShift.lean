import Mathlib.Data.List.Nodup
import NesMachine.Proofs.Cpu.Arithmetic
import NesMachine.Proofs.Cpu.Listing
import NesMachine.Proofs.Memory.Number

/-!
# `NesMachine/Proofs/Cpu/WideShift.lean` — shifts of many bytes

A shift takes one bit out of a byte, a rotate passes it on to the next byte, and the bit is on its way
in the carry. Doubling goes up from the lowest byte, and halving down from the highest.

Of rotates alone the equation for the whole number is an induction on the bytes, as it is for sums.
The shift at the beginning is a rotate that finds the carry clear.
-/

set_option autoImplicit false

namespace NesMachine

/-! ## One byte -/

namespace ModifyOp

theorem toNat_rol (carry : Bool) (value : UInt8) :
    (rol.result carry value).toNat + 256 * (rol.carryOut carry value).toNat
      = 2 * value.toNat + carry.toNat := by
  have hall : ∀ carry, ∀ n < 256,
      (rol.result carry (.ofNat n)).toNat + 256 * (rol.carryOut carry (.ofNat n)).toNat
        = 2 * n + carry.toNat := by decide +kernel
  simpa only [UInt8.ofNat_toNat] using hall carry value.toNat value.toNat_lt

theorem toNat_ror (carry : Bool) (value : UInt8) :
    2 * (ror.result carry value).toNat + (ror.carryOut carry value).toNat
      = value.toNat + 256 * carry.toNat := by
  have hall : ∀ carry, ∀ n < 256,
      2 * (ror.result carry (.ofNat n)).toNat + (ror.carryOut carry (.ofNat n)).toNat
        = n + 256 * carry.toNat := by decide +kernel
  simpa only [UInt8.ofNat_toNat] using hall carry value.toNat value.toNat_lt

/-- The one operation does what the other does when the carry is clear. -/
def ClearsInto (first rest : ModifyOp) : Prop :=
  ∀ p value, first.flags p value = rest.flags { p with carry := false } value ∧
    first.result p.carry value = rest.result false value

theorem asl_clearsInto_rol : asl.ClearsInto rol := by
  intro p value
  have hresult : value <<< 1 = value <<< 1 ||| 0 := UInt8.or_zero.symm
  exact ⟨congrArg { p with carry := value &&& 0x80 != 0 }.withResult hresult, hresult⟩

theorem lsr_clearsInto_ror : lsr.ClearsInto ror := by
  intro p value
  have hresult : value >>> 1 = value >>> 1 ||| 0 := UInt8.or_zero.symm
  exact ⟨congrArg { p with carry := value &&& 0x01 != 0 }.withResult hresult, hresult⟩

end ModifyOp

/-! ## Byte by byte -/

namespace Listing

/-- One operation on the first cell, and another one on all that come after it. -/
def shiftThrough (first rest : ModifyOp) : List UInt16 → List Line
  | [] => []
  | cell :: cells => .modify first cell :: cells.map (.modify rest)

/-- `ASL` for the lowest byte, and then `ROL` upwards. -/
def doubling (n : Nat) (m : UInt16) : List Line := shiftThrough .asl .rol (addressesFrom m n)

/-- `LSR` for the highest byte, and then `ROR` downwards. -/
def halving (n : Nat) (m : UInt16) : List Line :=
  shiftThrough .lsr .ror (addressesFrom m n).reverse

section

variable {first op : ModifyOp} {cell : UInt16} {cells : List UInt16}

theorem length_shiftThrough : (shiftThrough first op cells).length = cells.length := by
  cases cells with
  | nil => rfl
  | cons cell cells => simp [shiftThrough]

theorem written_shiftThrough {line : Line} (h : line ∈ shiftThrough first op cells) :
    line.written ⊆ cells := by
  cases cells with
  | nil => cases h
  | cons cell cells =>
    rw [shiftThrough, List.mem_cons, List.mem_map] at h
    rcases h with rfl | ⟨other, hother, rfl⟩
    · exact List.cons_subset_cons cell (List.nil_subset cells)
    · exact List.cons_subset.mpr ⟨List.mem_cons_of_mem cell hother, List.nil_subset _⟩

theorem effects_shiftThrough (h : first.ClearsInto op) (hcells : cells ≠ []) (r : Registers)
    (ram : Ram) : effects (shiftThrough first op cells) (r, ram)
      = effects (cells.map (.modify op)) (RegisterOp.clc.apply r, ram) := by
  cases cells with
  | nil => exact absurd rfl hcells
  | cons cell cells =>
    obtain ⟨hflags, hresult⟩ := h r.p (ram.read cell)
    refine congrArg (effects (cells.map (.modify op))) (Prod.ext ?_ ?_)
    · exact congrArg (fun p => { Routine.fetched r .absolute with p := p }) hflags
    · exact congrArg (ram.write cell) hresult

/-! What follows is about one operation on one cell after the other. -/

variable (r : Registers) (ram : Ram)

/-- The first cell has its result in the end, and the others are found as they were, with the carry
that the first one leaves. -/
theorem effects_modify_cons (h : (cell :: cells).Nodup) : ∃ r' ram',
    effects ((cell :: cells).map (.modify op)) (r, ram)
        = effects (cells.map (.modify op)) (r', ram') ∧
      r'.p.carry = op.carryOut r.p.carry (ram.read cell) ∧
      (∀ other ∈ cells, ram'.read other = ram.read other) ∧
      (effects (cells.map (.modify op)) (r', ram')).2.read cell
        = op.result r.p.carry (ram.read cell) := by
  obtain ⟨hcell, -⟩ := List.nodup_cons.mp h
  have hunwritten : ∀ line ∈ cells.map (Line.modify op), cell ∉ line.written := by
    intro line hline hmem
    obtain ⟨other, hother, rfl⟩ := List.mem_map.mp hline
    rw [List.mem_singleton.mp hmem] at hcell
    exact hcell hother
  refine ⟨_, _, rfl, rfl, fun other hother => Ram.read_write_other ram _ ?_, ?_⟩
  · rintro rfl
    exact hcell hother
  · exact (read_effects hunwritten _ _).trans (Ram.read_write_same ram cell _)

/-- **Rotates to the left, from the lowest byte on**: the number is doubled. -/
theorem effects_rol (h : cells.Nodup) :
    let state := effects (cells.map (.modify .rol)) (r, ram)
    littleEndian (cells.map state.2.read) + 256 ^ cells.length * state.1.p.carry.toNat
      = 2 * littleEndian (cells.map ram.read) + r.p.carry.toNat := by
  induction cells generalizing r ram with
  | nil => simp
  | cons cell cells ih =>
    obtain ⟨r', ram', heffects, hcarry, hkept, hread⟩ := effects_modify_cons r ram h
    have hfirst := ModifyOp.toNat_rol r.p.carry (ram.read cell)
    have hrest := ih r' ram' (List.nodup_cons.mp h).2
    rw [List.map_congr_left hkept, hcarry] at hrest
    rw [heffects]
    simp only [List.map_cons, littleEndian_cons, hread, List.length_cons, Nat.pow_succ,
      Nat.mul_assoc, Nat.mul_left_comm _ 256]
    omega

/-- **Rotates to the right, from the highest byte on**: the number is halved, and the carry is what
remains. -/
theorem effects_ror (h : cells.Nodup) :
    let state := effects (cells.map (.modify .ror)) (r, ram)
    2 * littleEndian (cells.reverse.map state.2.read) + state.1.p.carry.toNat
      = littleEndian (cells.reverse.map ram.read) + 256 ^ cells.length * r.p.carry.toNat := by
  induction cells generalizing r ram with
  | nil => simp
  | cons cell cells ih =>
    obtain ⟨r', ram', heffects, hcarry, hkept, hread⟩ := effects_modify_cons r ram h
    have hfirst := ModifyOp.toNat_ror r.p.carry (ram.read cell)
    have hrest := ih r' ram' (List.nodup_cons.mp h).2
    rw [List.map_congr_left fun other hother => hkept other (List.mem_reverse.mp hother),
      hcarry] at hrest
    -- The first byte is the highest one, so its equation counts as often as its place says.
    have hscaled := congrArg (256 ^ cells.length * ·) hfirst
    simp only [Nat.mul_add, Nat.mul_left_comm _ 2, Nat.mul_left_comm _ 256] at hscaled
    rw [heffects]
    simp only [List.reverse_cons, List.map_append, List.map_cons, List.map_nil,
      littleEndian_concat, List.length_map, List.length_reverse, List.length_cons, hread,
      Nat.pow_succ, Nat.mul_add, Nat.mul_assoc, Nat.mul_left_comm _ 256]
    omega

/-- Zero and negative are left by the last cell. -/
theorem describes_effects (hcells : cells ≠ []) :
    let state := effects (cells.map (.modify op)) (r, ram)
    state.1.p.Describes (state.2.read (cells.getLast hcells)) := by
  obtain ⟨front, last, rfl⟩ := List.eq_nil_or_concat'  cells |>.resolve_left hcells
  rw [List.getLast_append_singleton, List.map_append, effects_append]
  generalize effects (front.map (.modify op)) (r, ram) = state
  show (op.flags _ _).Describes ((state.2.write last _).read last)
  rw [Ram.read_write_same]
  exact Status.describes_withResult _ _

/-- The other registers are left alone. -/
theorem registers_effects_modify :
    let after := (effects (cells.map (.modify op)) (r, ram)).1
    after = { r with p := after.p, pc := after.pc } := by
  induction cells generalizing r ram with
  | nil => rfl
  | cons cell cells ih => exact ih _ _

end

/-- A program that comes to the cell `last` in the end has worked on the field in place: its flags
tell of that cell, and what it has changed is the flags, the program counter and the field. -/
structure InPlace (field : List UInt16) (last : UInt16) (start later : Cpu × Ram) : Prop where
  describes : later.1.registers.p.Describes (later.2.read last)
  registers : later.1.registers
    = { start.1.registers with p := later.1.registers.p, pc := later.1.registers.pc }
  memory : ∀ address ∉ field, later.2.read address = start.2.read address

open Cpu

/-- **The processor goes through the cells.** -/
theorem steps_shiftThrough {first op : ModifyOp} (h : first.ClearsInto op) {cells : List UInt16}
    (hcells : cells ≠ []) {cpu : Cpu} {ram : Ram} (hon : cpu.isOn = true)
    (hcode : ram.Holds cpu.registers.pc (shiftThrough first op cells))
    (hapart : cells.Disjoint (codeCells cpu.registers.pc (shiftThrough first op cells))) :
    let clear := RegisterOp.clc.apply cpu.registers
    ∃ later, Steps cells.length (cpu, ram) later ∧
      (later.1.registers, later.2) = effects (cells.map (.modify op)) (clear, ram) ∧
      InPlace cells (cells.getLast hcells) (cpu, ram) later := by
  intro clear
  obtain ⟨later, hsteps, hlater⟩ := steps_listing hon hcode
    fun line hline cell hwritten => hapart (written_shiftThrough hline hwritten)
  rw [length_shiftThrough] at hsteps
  rw [effects_shiftThrough h hcells] at hlater
  have hregisters : later.1.registers = (effects (cells.map (.modify op)) (clear, ram)).1 :=
    congrArg Prod.fst hlater
  have hram : later.2 = (effects (cells.map (.modify op)) (clear, ram)).2 :=
    congrArg Prod.snd hlater
  refine ⟨later, hsteps, hlater, ?_, ?_, ?_⟩
  · rw [hregisters, hram]
    exact describes_effects clear ram hcells
  · rw [hregisters]
    exact registers_effects_modify clear ram
  · intro address haddress
    rw [hram]
    refine read_effects (fun line hline hwritten => ?_) clear ram
    obtain ⟨other, hother, rfl⟩ := List.mem_map.mp hline
    rw [List.mem_singleton.mp hwritten] at haddress
    exact haddress hother

section

variable {n : Nat} {m : UInt16} {cpu : Cpu} {ram : Ram}

/-- **The field is doubled.** -/
theorem steps_doubling (hn : 0 < n) (hon : cpu.isOn = true)
    (hcode : ram.Holds cpu.registers.pc (doubling n m))
    (hapart : (addressesFrom m n).Disjoint (codeCells cpu.registers.pc (doubling n m))) :
    ∃ later, Steps n (cpu, ram) later ∧
      littleEndian (later.2.readBlock m n) + 256 ^ n * later.1.registers.p.carry.toNat
        = 2 * littleEndian (ram.readBlock m n) ∧
      InPlace (addressesFrom m n) (m + .ofNat (n - 1)) (cpu, ram) later := by
  have hlength : (addressesFrom m n).length = n := length_addressesFrom m n
  have hfield : addressesFrom m n ≠ [] := List.ne_nil_of_length_pos (hn.trans_eq hlength.symm)
  have hlines : n ≤ (doubling n m).length := (length_shiftThrough.trans hlength).ge
  have hnodup := nodup_addressesFrom m (le_of_disjoint_codeCells hlines hapart)
  obtain ⟨later, hsteps, hlater, hplace⟩ :=
    steps_shiftThrough ModifyOp.asl_clearsInto_rol hfield hon hcode hapart
  rw [hlength] at hsteps
  rw [getLast_addressesFrom] at hplace
  have hdoubled := effects_rol (RegisterOp.clc.apply cpu.registers) ram hnodup
  rw [← hlater, hlength] at hdoubled
  simp only [Ram.readBlock_eq]
  exact ⟨later, hsteps, hdoubled, hplace⟩

/-- **The field is halved.** -/
theorem steps_halving (hn : 0 < n) (hon : cpu.isOn = true)
    (hcode : ram.Holds cpu.registers.pc (halving n m))
    (hapart : (addressesFrom m n).Disjoint (codeCells cpu.registers.pc (halving n m))) :
    ∃ later, Steps n (cpu, ram) later ∧
      littleEndian (later.2.readBlock m n) = littleEndian (ram.readBlock m n) / 2 ∧
      later.1.registers.p.carry.toNat = littleEndian (ram.readBlock m n) % 2 ∧
      InPlace (addressesFrom m n) m (cpu, ram) later := by
  have hlength : (addressesFrom m n).reverse.length = n :=
    List.length_reverse.trans (length_addressesFrom m n)
  have hreverse : (addressesFrom m n).reverse ≠ [] :=
    List.ne_nil_of_length_pos (hn.trans_eq hlength.symm)
  have hlines : n ≤ (halving n m).length := (length_shiftThrough.trans hlength).ge
  have hnodup := nodup_addressesFrom m (le_of_disjoint_codeCells hlines hapart)
  obtain ⟨later, hsteps, hlater, hplace⟩ :=
    steps_shiftThrough ModifyOp.lsr_clearsInto_ror hreverse hon hcode
      fun _ hmem => hapart (List.mem_reverse.mp hmem)
  rw [hlength] at hsteps
  rw [List.getLast_reverse, head_addressesFrom] at hplace
  have hhalved := effects_ror (RegisterOp.clc.apply cpu.registers) ram
    (List.nodup_reverse.mpr hnodup)
  rw [← hlater, List.reverse_reverse] at hhalved
  dsimp only [RegisterOp.apply, Bool.toNat_false, Nat.mul_zero, Nat.add_zero] at hhalved
  have hcarry := later.1.registers.p.carry.toNat_le
  simp only [Ram.readBlock_eq]
  refine ⟨later, hsteps, by omega, by omega, hplace.describes, hplace.registers, ?_⟩
  intro address haddress
  exact hplace.memory address fun hmem => haddress (List.mem_reverse.mp hmem)

end

end Listing

open Listing

namespace Cpu

/-- **Shifts and rotates work on numbers of any width.**

The program is at the program counter, and the field of `n` bytes from `m` on is no part of it. Then
all steps of the program succeed. Upwards from the lowest byte, what the field holds is doubled, with
the carry above it. Downwards from the highest byte it is halved, and the carry is what remains. Zero
and negative tell of the byte that was shifted last, and nothing else has changed. -/
theorem wide_shifts (n : Nat) (m : UInt16) (cpu : Cpu) (ram : Ram) (hn : 0 < n)
    (hon : cpu.isOn = true) :
    let pc := cpu.registers.pc
    let field := addressesFrom m n
    let number (ram : Ram) : Nat := littleEndian (ram.readBlock m n)
    (ram.Holds pc (doubling n m) → field.Disjoint (codeCells pc (doubling n m)) →
      ∃ later, Steps n (cpu, ram) later ∧
        number later.2 + 256 ^ n * later.1.registers.p.carry.toNat = 2 * number ram ∧
        InPlace field (m + .ofNat (n - 1)) (cpu, ram) later) ∧
    (ram.Holds pc (halving n m) → field.Disjoint (codeCells pc (halving n m)) →
      ∃ later, Steps n (cpu, ram) later ∧
        number later.2 = number ram / 2 ∧
        later.1.registers.p.carry.toNat = number ram % 2 ∧
        InPlace field m (cpu, ram) later) := by
  intro pc field number
  exact ⟨steps_doubling hn hon, steps_halving hn hon⟩

/-- A program for a field of two bytes: both lines have their opcodes and one address each. -/
def shiftRam (first op : UInt8) (low high : UInt8) (term : List UInt8) : Ram :=
  (Ram.zeros.writeBlock 0x0000 [first, low, 0x00, op, high, 0x00]).writeBlock 0x0080 term

/-- $80C1 is doubled, and $0181 is halved; the carry that the processor comes with is not in it. -/
theorem wide_shifts_carry :
    let double := shiftRam 0x0E 0x2E 0x80 0x81 [0xC1, 0x80]
    let halve := shiftRam 0x4E 0x6E 0x81 0x80 [0x81, 0x01]
    0 < 2 ∧ (carryCpu 0x00 true).isOn = true ∧
    double.Holds 0x0000 (doubling 2 0x0080) ∧
    halve.Holds 0x0000 (halving 2 0x0080) ∧
    (∃ later, Steps 2 (carryCpu 0x00 true, double) later ∧
      littleEndian (later.2.readBlock 0x0080 2) + 65536 * later.1.registers.p.carry.toNat
        = 0x10182) ∧
    (∃ later, Steps 2 (carryCpu 0x00 true, halve) later ∧
      littleEndian (later.2.readBlock 0x0080 2) = 0x00C0 ∧
      later.1.registers.p.carry.toNat = 1) := by
  intro double halve
  have hdouble : double.Holds 0x0000 (doubling 2 0x0080) := by decide +kernel
  have hhalve : halve.Holds 0x0000 (halving 2 0x0080) := by decide +kernel
  obtain ⟨hdoubles, -⟩ := wide_shifts 2 0x0080 (carryCpu 0x00 true) double (by decide) rfl
  obtain ⟨-, hhalves⟩ := wide_shifts 2 0x0080 (carryCpu 0x00 true) halve (by decide) rfl
  refine ⟨by decide, rfl, hdouble, hhalve, ?_, ?_⟩
  · obtain ⟨later, hsteps, hnumber, -⟩ :=
      hdoubles hdouble fun _ => not_mem_addressesFrom (by decide +kernel) (by decide +kernel)
    have hfield : littleEndian (double.readBlock 0x0080 2) = 0x80C1 := by decide +kernel
    dsimp only at hnumber
    rw [hfield] at hnumber
    exact ⟨later, hsteps, hnumber⟩
  · obtain ⟨later, hsteps, hnumber, hcarry, -⟩ :=
      hhalves hhalve fun _ => not_mem_addressesFrom (by decide +kernel) (by decide +kernel)
    have hfield : littleEndian (halve.readBlock 0x0080 2) = 0x0181 := by decide +kernel
    dsimp only at hnumber hcarry
    rw [hfield] at hnumber hcarry
    exact ⟨later, hsteps, hnumber, hcarry⟩

end Cpu

end NesMachine
