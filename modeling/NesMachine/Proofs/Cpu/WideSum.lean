import NesMachine.Proofs.Cpu.Arithmetic
import NesMachine.Proofs.Cpu.Listing
import NesMachine.Proofs.Memory.Number

/-!
# `NesMachine/Proofs/Cpu/WideSum.lean` — sums of many bytes

The processor adds bytes. For longer numbers a program goes through their bytes from the lowest on, as
one adds on paper, and the carry takes what is left over from one column to the next. What a column
does is one equation (`effects_column`), from which the equation of the whole sum is an induction on
the columns: the carries in between cancel. A difference is the sum with the complement.

Nothing in this is about where the bytes are, only about which cells are different ones. A result must
not be written where a later column still reads (`Column.Spares`). Of fields in memory this is true if
the result is apart from a term, and also if it is the term itself.
-/

set_option autoImplicit false

namespace NesMachine

/-! ## Sums, byte by byte -/

/-- Where the two bytes of a column of a sum are, and where its result goes. -/
structure Column where
  first : UInt16
  second : UInt16
  total : UInt16

namespace Column

/-- The column's lines: a load, an operation that takes the carry along, and a store. -/
def lines (op : ReadOp) (column : Column) : List Line :=
  [.read .lda column.first, .read op column.second, .store .sta column.total]

/-- The result of a column is not in a cell that the other one needs. -/
def Spares (column other : Column) : Prop :=
  column.total ≠ other.first ∧ column.total ≠ other.second ∧ column.total ≠ other.total

end Column

namespace Listing

section

/-! `op` adds to the accumulator what `term` makes of its value. -/

variable {op : ReadOp} {term : UInt8 → UInt8}

theorem effects_column (hop : ∀ value r, op.apply value r = r.addWithCarry (term value))
    (column : Column) (r : Registers) (ram : Ram) :
    let state := effects (column.lines op) (r, ram)
    (state.2.read column.total).toNat + 256 * state.1.p.carry.toNat
        = (ram.read column.first).toNat + (term (ram.read column.second)).toNat + r.p.carry.toNat ∧
      ∀ cell, column.total ≠ cell → state.2.read cell = ram.read cell := by
  intro state
  let loaded := Routine.fetched
    ((Routine.fetched r .absolute).setA (ram.read column.first)) .absolute
  let added := op.apply (ram.read column.second) loaded
  have hstate : state = (Routine.fetched added .absolute, ram.write column.total added.a) := rfl
  have hadded : added = loaded.addWithCarry (term (ram.read column.second)) := hop _ _
  rw [hstate]
  refine ⟨?_, fun cell hcell => Ram.read_write_other ram _ hcell⟩
  rw [Ram.read_write_same, hadded]
  exact loaded.sum_addWithCarry _

/-- **The sum of all columns.** The carry that one column leaves is the one that the next one
takes. -/
theorem effects_columns (hop : ∀ value r, op.apply value r = r.addWithCarry (term value))
    {columns : List Column} (hspares : columns.Pairwise Column.Spares) (r : Registers) (ram : Ram) :
    let state := effects (columns.flatMap (Column.lines op)) (r, ram)
    littleEndian (columns.map fun column => state.2.read column.total)
          + 256 ^ columns.length * state.1.p.carry.toNat
        = littleEndian (columns.map fun column => ram.read column.first)
          + littleEndian (columns.map fun column => term (ram.read column.second))
          + r.p.carry.toNat ∧
      ∀ cell ∉ columns.map Column.total, state.2.read cell = ram.read cell := by
  induction columns generalizing r ram with
  | nil => exact ⟨by simp, fun _ _ => rfl⟩
  | cons column columns ih =>
    obtain ⟨hspare, hspares⟩ := List.pairwise_cons.mp hspares
    obtain ⟨hsum, hkept⟩ := effects_column hop column r ram
    rw [List.flatMap_cons, effects_append]
    generalize effects (column.lines op) (r, ram) = state at hsum hkept ⊢
    obtain ⟨r', ram'⟩ := state
    dsimp only at hsum hkept
    obtain ⟨hsums, hkepts⟩ := ih hspares r' ram'
    -- The first column leaves the terms of the others, and they leave its result.
    have hfirst : ∀ other ∈ columns, ram'.read other.first = ram.read other.first :=
      fun other hother => hkept _ (hspare other hother).1
    have hsecond : ∀ other ∈ columns,
        term (ram'.read other.second) = term (ram.read other.second) :=
      fun other hother => congrArg term (hkept _ (hspare other hother).2.1)
    have htotal : column.total ∉ columns.map Column.total := by
      intro hmem
      obtain ⟨other, hother, hsame⟩ := List.mem_map.mp hmem
      exact (hspare other hother).2.2 hsame.symm
    refine ⟨?_, ?_⟩
    · rw [List.map_congr_left hfirst, List.map_congr_left hsecond] at hsums
      simp only [List.map_cons, littleEndian_cons, hkepts _ htotal, List.length_cons,
        Nat.pow_succ, Nat.mul_assoc, Nat.mul_comm _ 256]
      omega
    · intro cell hcell
      rw [List.map_cons, List.mem_cons, not_or] at hcell
      rw [hkepts cell hcell.2]
      exact hkept cell (Ne.symm hcell.1)

end

/-! ## Sums of fields in memory -/

/-- The columns of a sum, with the fields of `n` bytes from `a` and `b` on as terms, and the one from
`c` on for the result. -/
def columns (n : Nat) (a b c : UInt16) : List Column :=
  (List.range n).map fun i => ⟨a + .ofNat i, b + .ofNat i, c + .ofNat i⟩

/-- A line that sets the carry, and then the columns from the lowest on. -/
def columnwise (first : RegisterOp) (op : ReadOp) (n : Nat) (a b c : UInt16) : List Line :=
  .register first :: (List.range n).flatMap fun i =>
    [.read .lda (a + .ofNat i), .read op (b + .ofNat i), .store .sta (c + .ofNat i)]

/-- `CLC`, and then for every byte `LDA`, `ADC` and `STA`. -/
def addition (n : Nat) (a b c : UInt16) : List Line := columnwise .clc .adc n a b c

/-- `SEC`, and then for every byte `LDA`, `SBC` and `STA`. -/
def subtraction (n : Nat) (a b c : UInt16) : List Line := columnwise .sec .sbc n a b c

section

variable {first : RegisterOp} {op : ReadOp} {n : Nat} {a b c : UInt16}

theorem columnwise_eq : columnwise first op n a b c
    = .register first :: (columns n a b c).flatMap (Column.lines op) := by
  rw [columns, List.flatMap_map]
  rfl

theorem length_columnwise : (columnwise first op n a b c).length = 3 * n + 1 := by
  simp [columnwise, Nat.mul_comm]

theorem written_columnwise {line : Line} (h : line ∈ columnwise first op n a b c) :
    line.written ⊆ addressesFrom c n := by
  rw [columnwise, List.mem_cons, List.mem_flatMap] at h
  rcases h with rfl | ⟨i, hi, hline⟩
  · exact List.nil_subset _
  · simp only [List.mem_cons, List.not_mem_nil, or_false] at hline
    rcases hline with rfl | rfl | rfl
    · exact List.nil_subset _
    · exact List.nil_subset _
    · intro cell hcell
      rw [List.mem_singleton.mp hcell]
      exact List.mem_map_of_mem hi

/-- A field is written from one end to the other, so a term may be the field of the result. -/
theorem spares_columns (hn : n ≤ 65536)
    (ha : a = c ∨ (addressesFrom a n).Disjoint (addressesFrom c n))
    (hb : b = c ∨ (addressesFrom b n).Disjoint (addressesFrom c n)) :
    (columns n a b c).Pairwise Column.Spares := by
  have hterm {term : UInt16} (h : term = c ∨ (addressesFrom term n).Disjoint (addressesFrom c n))
      {i j : Nat} (hi : i ∈ List.range n) (hj : j ∈ List.range n) (hne : i ≠ j) :
      c + .ofNat i ≠ term + .ofNat j := by
    intro hsame
    rcases h with rfl | hapart
    · rw [List.mem_range] at hi hj
      exact hne (add_ofNat_inj (by omega) (by omega) hsame)
    · refine hapart (List.mem_map_of_mem hj) ?_
      rw [← hsame]
      exact List.mem_map_of_mem hi
  rw [columns, List.pairwise_map]
  refine List.nodup_range.imp_of_mem fun hi hj hne => ⟨?_, ?_, ?_⟩
  · exact hterm ha hi hj hne
  · exact hterm hb hi hj hne
  · exact hterm (.inl rfl) hi hj hne

open Cpu

/-- **The processor goes through the columns.** -/
theorem steps_columnwise {term : UInt8 → UInt8} {carry : Bool}
    (hfirst : ∀ r, (first.apply r).p.carry = carry)
    (hop : ∀ value r, op.apply value r = r.addWithCarry (term value))
    {cpu : Cpu} {ram : Ram} (hon : cpu.isOn = true)
    (ha : a = c ∨ (addressesFrom a n).Disjoint (addressesFrom c n))
    (hb : b = c ∨ (addressesFrom b n).Disjoint (addressesFrom c n))
    (hcode : ram.Holds cpu.registers.pc (columnwise first op n a b c))
    (hapart : (addressesFrom c n).Disjoint
      (codeCells cpu.registers.pc (columnwise first op n a b c))) :
    ∃ later, Steps (3 * n + 1) (cpu, ram) later ∧
      littleEndian (later.2.readBlock c n) + 256 ^ n * later.1.registers.p.carry.toNat
        = littleEndian (ram.readBlock a n) + littleEndian ((ram.readBlock b n).map term)
          + carry.toNat ∧
      ∀ address ∉ addressesFrom c n, later.2.read address = ram.read address := by
  have hn : n ≤ 65536 :=
    le_of_disjoint_codeCells (by rw [length_columnwise]; omega) hapart
  obtain ⟨later, hsteps, hlater⟩ := steps_listing hon hcode
    fun line hline cell hwritten => hapart (written_columnwise hline hwritten)
  rw [length_columnwise] at hsteps
  refine ⟨later, hsteps, ?_⟩
  -- The first line only sets the carry.
  let started := first.apply (Routine.fetched cpu.registers .implied)
  have hcarry : started.p.carry = carry := hfirst _
  obtain ⟨hsum, hkept⟩ := effects_columns hop (spares_columns hn ha hb) started ram
  have hstart : effects (columnwise first op n a b c) (cpu.registers, ram)
      = effects ((columns n a b c).flatMap (Column.lines op)) (started, ram) := by
    rw [columnwise_eq]
    rfl
  rw [← hstart, ← hlater, hcarry] at hsum
  rw [← hstart, ← hlater] at hkept
  simp only [columns, List.map_map, List.length_map, List.length_range] at hsum hkept
  simp only [Ram.readBlock_eq, addressesFrom, List.map_map]
  exact ⟨hsum, hkept⟩

end

end Listing

open Listing

/-- Adding the complement and one, a number is taken off; the carry is clear where this had to go
round. -/
theorem difference_of_sum {size a b c : Nat} {carry : Bool} (hc : c < size)
    (h : c + b + size * carry.toNat = a + size) :
    (c : Int) = ((a : Int) - b) % (size : Int) ∧ (carry = true ↔ b ≤ a) := by
  cases carry with
  | true =>
    rw [Bool.toNat_true] at h
    have hdifference : (a : Int) - b = c := by omega
    rw [hdifference, Int.emod_eq_of_lt (by omega) (by omega)]
    exact ⟨rfl, iff_of_true rfl (by omega)⟩
  | false =>
    rw [Bool.toNat_false] at h
    have hdifference : (a : Int) - b = c - size := by omega
    rw [hdifference, Int.sub_emod_right, Int.emod_eq_of_lt (by omega) (by omega)]
    exact ⟨rfl, iff_of_false (by decide) (by omega)⟩

namespace Cpu

/-- **Addition and subtraction work on numbers of any width.**

The program is at the program counter, `a` and `b` are the fields of the terms and `c` is that of the
result, `n` bytes each. The result is no part of the program, and it may be written over one of the
terms or over both. Then all steps of the program succeed. After an addition the result and the carry
above it are the sum, and after a subtraction the result is the difference modulo what fits, and the
carry tells that nothing was borrowed. No cell outside the result has changed. -/
theorem wide_arithmetic (n : Nat) (a b c : UInt16) (cpu : Cpu) (ram : Ram) (hon : cpu.isOn = true)
    (ha : a = c ∨ (addressesFrom a n).Disjoint (addressesFrom c n))
    (hb : b = c ∨ (addressesFrom b n).Disjoint (addressesFrom c n)) :
    let pc := cpu.registers.pc
    let number (ram : Ram) (field : UInt16) : Nat := littleEndian (ram.readBlock field n)
    (ram.Holds pc (addition n a b c) →
      (addressesFrom c n).Disjoint (codeCells pc (addition n a b c)) →
      ∃ later, Steps (3 * n + 1) (cpu, ram) later ∧
        number later.2 c + 256 ^ n * later.1.registers.p.carry.toNat
          = number ram a + number ram b ∧
        ∀ address ∉ addressesFrom c n, later.2.read address = ram.read address) ∧
    (ram.Holds pc (subtraction n a b c) →
      (addressesFrom c n).Disjoint (codeCells pc (subtraction n a b c)) →
      ∃ later, Steps (3 * n + 1) (cpu, ram) later ∧
        (number later.2 c : Int) = ((number ram a : Int) - number ram b) % (256 ^ n : Nat) ∧
        (later.1.registers.p.carry = true ↔ number ram b ≤ number ram a) ∧
        ∀ address ∉ addressesFrom c n, later.2.read address = ram.read address) := by
  intro pc number
  have hfits (ram : Ram) (field : UInt16) : number ram field < 256 ^ n := by
    have hlt := littleEndian_lt (ram.readBlock field n)
    rwa [Ram.length_readBlock] at hlt
  refine ⟨?_, ?_⟩
  · intro hcode hapart
    have hadc : ∀ value r, ReadOp.adc.apply value r = r.addWithCarry (id value) := fun _ _ => rfl
    obtain ⟨later, hsteps, hsum, hkept⟩ :=
      steps_columnwise (fun _ => rfl) hadc hon ha hb hcode hapart
    rw [List.map_id, Bool.toNat_false] at hsum
    exact ⟨later, hsteps, hsum, hkept⟩
  · intro hcode hapart
    have hsbc : ∀ value r, ReadOp.sbc.apply value r = r.addWithCarry (~~~value) := fun _ _ => rfl
    obtain ⟨later, hsteps, hcolumns, hkept⟩ :=
      steps_columnwise (fun _ => rfl) hsbc hon ha hb hcode hapart
    have hsum : number later.2 c + 256 ^ n * later.1.registers.p.carry.toNat
        = number ram a + littleEndian ((ram.readBlock b n).map (~~~·)) + 1 := hcolumns
    have hcomplement : littleEndian ((ram.readBlock b n).map (~~~·)) + number ram b + 1
        = 256 ^ n := by
      have hbytes := littleEndian_complement (ram.readBlock b n)
      rwa [Ram.length_readBlock] at hbytes
    have htotal : number later.2 c + number ram b
        + 256 ^ n * later.1.registers.p.carry.toNat = number ram a + 256 ^ n := by
      omega
    obtain ⟨hdifference, hcarry⟩ := difference_of_sum (hfits later.2 c) htotal
    exact ⟨later, hsteps, hdifference, hcarry, hkept⟩

/-- A processor at address zero, with the carry the wrong way round for the program there. -/
def wideCpu (carry : Bool) : Cpu :=
  ⟨{ Registers.powerOn with p := { Status.powerOn with carry := carry } }, 0, true⟩

/-- A program of two columns, with its result in the field of its first term, and the two fields. -/
def wideRam (first op : UInt8) (term other : List UInt8) : Ram :=
  ((Ram.zeros.writeBlock 0x0000
    [first, 0xAD, 0x80, 0x00, op, 0x90, 0x00, 0x8D, 0x80, 0x00,
      0xAD, 0x81, 0x00, op, 0x91, 0x00, 0x8D, 0x81, 0x00]).writeBlock 0x0080 term).writeBlock
    0x0090 other

/-- $01FF and $0001 are $0200, and $0000 less $0001 goes round. -/
theorem wide_arithmetic_carries :
    let sum := wideRam 0x18 0x6D [0xFF, 0x01] [0x01, 0x00]
    let difference := wideRam 0x38 0xED [0x00, 0x00] [0x01, 0x00]
    (wideCpu true).isOn = true ∧
    (addressesFrom 0x0090 2).Disjoint (addressesFrom 0x0080 2) ∧
    sum.Holds 0x0000 (addition 2 0x0080 0x0090 0x0080) ∧
    difference.Holds 0x0000 (subtraction 2 0x0080 0x0090 0x0080) ∧
    (∃ later, Steps 7 (wideCpu true, sum) later ∧
      littleEndian (later.2.readBlock 0x0080 2) = 0x0200) ∧
    (∃ later, Steps 7 (wideCpu false, difference) later ∧
      littleEndian (later.2.readBlock 0x0080 2) = 0xFFFF ∧
      later.1.registers.p.carry = false) := by
  intro sum difference
  have hterm : (addressesFrom 0x0090 2).Disjoint (addressesFrom 0x0080 2) :=
    fun _ => not_mem_addressesFrom (by decide) (by decide)
  have hsumCode : sum.Holds 0x0000 (addition 2 0x0080 0x0090 0x0080) := by decide +kernel
  have hdifferenceCode : difference.Holds 0x0000 (subtraction 2 0x0080 0x0090 0x0080) := by
    decide +kernel
  obtain ⟨hadds, -⟩ :=
    wide_arithmetic 2 0x0080 0x0090 0x0080 (wideCpu true) sum rfl (.inl rfl) (.inr hterm)
  obtain ⟨-, hsubtracts⟩ :=
    wide_arithmetic 2 0x0080 0x0090 0x0080 (wideCpu false) difference rfl (.inl rfl) (.inr hterm)
  refine ⟨rfl, hterm, hsumCode, hdifferenceCode, ?_, ?_⟩
  · obtain ⟨later, hsteps, htotal, -⟩ :=
      hadds hsumCode fun _ => not_mem_addressesFrom (by decide +kernel) (by decide +kernel)
    have hterms : littleEndian (sum.readBlock 0x0080 2) + littleEndian (sum.readBlock 0x0090 2)
        = 0x0200 := by decide +kernel
    dsimp only at htotal
    refine ⟨later, hsteps, ?_⟩
    omega
  · obtain ⟨later, hsteps, htotal, hcarry, -⟩ :=
      hsubtracts hdifferenceCode fun _ =>
        not_mem_addressesFrom (by decide +kernel) (by decide +kernel)
    have hfirst : littleEndian (difference.readBlock 0x0080 2) = 0 := by decide +kernel
    have hsecond : littleEndian (difference.readBlock 0x0090 2) = 1 := by decide +kernel
    dsimp only at htotal hcarry
    rw [hfirst, hsecond] at htotal hcarry
    refine ⟨later, hsteps, Int.ofNat.inj htotal, ?_⟩
    simpa using hcarry

end Cpu

end NesMachine
