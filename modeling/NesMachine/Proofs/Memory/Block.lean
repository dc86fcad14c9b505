import NesMachine.Memory

/-!
# `NesMachine/Proofs/Memory/Block.lean` — blocks of cells

A block is as many cells as one likes from an address on. It may go round after the last cell, and
its addresses are then still all different, unless there are more of them than cells.

`Ram.writeBlock` goes round too. A block that ends within the address space does not get there, and
then what it leaves is what one expects: its bytes inside, and the old cells outside. Both are
inductions on the block; the bound is what keeps the address of the next byte from going round.
-/

set_option autoImplicit false

namespace NesMachine

/-! ## The addresses of a block -/

/-- The addresses from one on, going round after the last one. -/
def addressesFrom (address : UInt16) (count : Nat) : List UInt16 :=
  (List.range count).map fun index => address + UInt16.ofNat index

theorem addressesFrom_succ (address : UInt16) (count : Nat) :
    addressesFrom address (count + 1) = address :: addressesFrom (address + 1) count := by
  have hnext (index : Nat) :
      address + UInt16.ofNat (index + 1) = address + 1 + UInt16.ofNat index := by
    rw [UInt16.ofNat_add, UInt16.add_comm (.ofNat index), ← UInt16.add_assoc]
    rfl
  rw [addressesFrom, List.range_succ_eq_map, List.map_cons, List.map_map]
  apply congr
  · exact congrArg List.cons (UInt16.add_zero address)
  · exact List.map_congr_left fun index _ => hnext index

theorem addressesFrom_add (address : UInt16) (first second : Nat) :
    addressesFrom address (first + second)
      = addressesFrom address first ++ addressesFrom (address + .ofNat first) second := by
  rw [addressesFrom, List.range_add, List.map_append, List.map_map]
  refine congrArg _ (List.map_congr_left fun index _ => ?_)
  simp [UInt16.add_assoc]

@[simp] theorem length_addressesFrom (address : UInt16) (count : Nat) :
    (addressesFrom address count).length = count := by
  simp [addressesFrom]

theorem head_addressesFrom {address : UInt16} {count : Nat} (h : addressesFrom address count ≠ []) :
    (addressesFrom address count).head h = address := by
  simp [addressesFrom]

theorem getLast_addressesFrom {address : UInt16} {count : Nat}
    (h : addressesFrom address count ≠ []) :
    (addressesFrom address count).getLast h = address + .ofNat (count - 1) := by
  simp [addressesFrom, List.getLast_range]

/-- A block that misses an address is shorter than memory. -/
theorem lt_of_not_mem_addressesFrom {cell address : UInt16} {count : Nat}
    (h : cell ∉ addressesFrom address count) : count < 65536 := by
  have hlt := (cell - address).toNat_lt
  apply Nat.lt_of_not_le
  intro hlong
  apply h
  refine List.mem_map.mpr ⟨(cell - address).toNat, List.mem_range.mpr (by omega), ?_⟩
  rw [UInt16.ofNat_toNat, UInt16.add_comm, UInt16.sub_add_cancel]

theorem add_ofNat_inj {address : UInt16} {i j : Nat} (hi : i < 65536) (hj : j < 65536)
    (h : address + .ofNat i = address + .ofNat j) : i = j := by
  have hnumbers := congrArg UInt16.toNat ((UInt16.add_right_inj address).mp h)
  rwa [UInt16.toNat_ofNat', UInt16.toNat_ofNat', Nat.mod_eq_of_lt hi,
    Nat.mod_eq_of_lt hj] at hnumbers

theorem nodup_addressesFrom (address : UInt16) {count : Nat} (h : count ≤ 65536) :
    (addressesFrom address count).Nodup := by
  rw [addressesFrom, List.Nodup, List.pairwise_map]
  refine List.nodup_range.imp_of_mem fun {i j} hi hj hne hsame => hne ?_
  rw [List.mem_range] at hi hj
  exact add_ofNat_inj (by omega) (by omega) hsame

theorem toNat_of_mem_addressesFrom {cell address : UInt16} {count : Nat}
    (hfit : address.toNat + count ≤ 65536) (h : cell ∈ addressesFrom address count) :
    address.toNat ≤ cell.toNat ∧ cell.toNat < address.toNat + count := by
  obtain ⟨index, hindex, rfl⟩ := List.mem_map.mp h
  rw [List.mem_range] at hindex
  rw [UInt16.toNat_add, UInt16.toNat_ofNat']
  omega

/-- A block has no cell of one that ends before it. -/
theorem not_mem_addressesFrom {cell first second : UInt16} {m n : Nat}
    (hend : first.toNat + m ≤ second.toNat) (hfit : second.toNat + n ≤ 65536)
    (h : cell ∈ addressesFrom second n) : cell ∉ addressesFrom first m := by
  intro hfirst
  have hlow := toNat_of_mem_addressesFrom (by omega) hfirst
  have hhigh := toNat_of_mem_addressesFrom hfit h
  omega

namespace Ram

theorem readBlock_eq (ram : Ram) (address : UInt16) (count : Nat) :
    ram.readBlock address count = (addressesFrom address count).map ram.read := by
  rw [addressesFrom, List.map_map]
  rfl

end Ram

/-! ## A block that was written -/

theorem toNat_succ_of_lt {a : UInt16} (h : a.toNat + 1 < 65536) : (a + 1).toNat = a.toNat + 1 := by
  rw [UInt16.toNat_add]
  exact Nat.mod_eq_of_lt h

namespace Ram

theorem read_writeBlock_of_outside {bytes : List UInt8} {ram : Ram} {first address : UInt16}
    (hfit : first.toNat + bytes.length ≤ 65536)
    (hout : address.toNat < first.toNat ∨ first.toNat + bytes.length ≤ address.toNat) :
    (ram.writeBlock first bytes).read address = ram.read address := by
  induction bytes generalizing ram first with
  | nil => rfl
  | cons byte rest ih =>
    rw [List.length_cons] at hfit hout
    have hne : first ≠ address := by
      rintro rfl
      omega
    rw [writeBlock]
    -- After the last byte the address may go round, but nothing is written there any more.
    cases rest with
    | nil => exact read_write_other ram byte hne
    | cons next rest =>
      rw [List.length_cons] at hfit hout
      have hsucc := toNat_succ_of_lt (a := first) (by omega)
      rw [ih (by rw [hsucc, List.length_cons]; omega) (by rw [hsucc, List.length_cons]; omega)]
      exact read_write_other ram byte hne

theorem read_writeBlock_of_inside {bytes : List UInt8} {ram : Ram} {first address : UInt16}
    {i : Nat} (hfit : first.toNat + bytes.length ≤ 65536) (hi : i < bytes.length)
    (ha : address.toNat = first.toNat + i) :
    (ram.writeBlock first bytes).read address = bytes[i] := by
  induction bytes generalizing ram first i with
  | nil => exact absurd hi (Nat.not_lt_zero i)
  | cons byte rest ih =>
    rw [List.length_cons] at hfit hi
    rw [writeBlock]
    cases i with
    | zero =>
      obtain rfl : first = address := UInt16.toNat_inj.mp (by omega)
      cases rest with
      | nil => exact read_write_same ram first byte
      | cons next rest =>
        rw [List.length_cons] at hfit
        have hsucc := toNat_succ_of_lt (a := first) (by omega)
        rw [read_writeBlock_of_outside (by rw [hsucc, List.length_cons]; omega)
          (Or.inl (by rw [hsucc]; omega))]
        exact read_write_same ram first byte
    | succ i =>
      have hsucc := toNat_succ_of_lt (a := first) (by omega)
      rw [List.getElem_cons_succ]
      exact ih (by rw [hsucc]; omega) (by omega) (by rw [hsucc]; omega)

end Ram

namespace Memory

theorem write_on {ram : Ram} {address : Nat} {bytes : List UInt8} (hin : address < Ram.size)
    (hfit : address + bytes.length ≤ Ram.size) :
    write address bytes (on ram)
      = ⟨.ok (), on (ram.writeBlock (UInt16.ofNat address) bytes), []⟩ := by
  rw [write, blockFault_eq_none_iff.mpr ⟨hin, hfit⟩]

end Memory

end NesMachine
