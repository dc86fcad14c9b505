/-!
# `NesMachine/Ram.lean` — 65536 cells

The address space has one cell for every word, so reading and writing by word never fails and no
address is out of range. A memory cell is a function of its address; `read_write` is the whole
theory of a single write, and `ext` says that cells are all there is.
-/

set_option autoImplicit false

namespace NesMachine

/-- The contents of the address space. -/
structure Ram where
  cells : Vector UInt8 65536

namespace Ram

/-- The count of cells. -/
def size : Nat := 65536

/-- All cells zero. -/
def zeros : Ram := ⟨Vector.replicate 65536 0⟩

instance : Inhabited Ram := ⟨zeros⟩

/-- The cell at an address. -/
def read (ram : Ram) (address : UInt16) : UInt8 :=
  have inside : address.toNat < 65536 := address.toNat_lt
  ram.cells[address.toNat]

/-- Replaces the cell at an address. -/
def write : Ram → UInt16 → UInt8 → Ram
  | ⟨cells⟩, address, value => ⟨cells.set address.toNat value address.toNat_lt⟩

/-- Replaces cells one after another from an address on, going round after the last one. -/
def writeBlock : Ram → UInt16 → List UInt8 → Ram
  | ram, _, [] => ram
  | ram, address, byte :: bytes => (ram.write address byte).writeBlock (address + 1) bytes

/-- The cells from an address on, going round after the last one. -/
def readBlock (ram : Ram) (address : UInt16) (length : Nat) : List UInt8 :=
  (List.range length).map fun index => ram.read (address + UInt16.ofNat index)

/-! ## Laws -/

@[simp] theorem read_zeros (address : UInt16) : zeros.read address = 0 := by
  simp [read, zeros]

theorem read_write (ram : Ram) (written address : UInt16) (value : UInt8) :
    (ram.write written value).read address
      = if written = address then value else ram.read address := by
  rcases ram with ⟨cells⟩
  have number : written.toNat = address.toNat ↔ written = address := UInt16.toNat_inj
  simp [read, write, Vector.getElem_set, number]

@[simp] theorem read_write_same (ram : Ram) (address : UInt16) (value : UInt8) :
    (ram.write address value).read address = value := by
  simp [read_write]

theorem read_write_other (ram : Ram) {written address : UInt16} (value : UInt8)
    (other : written ≠ address) : (ram.write written value).read address = ram.read address := by
  simp [read_write, other]

/-- Two memories with the same cells are the same. -/
@[ext] theorem ext {first second : Ram}
    (same : ∀ address, first.read address = second.read address) : first = second := by
  rcases first with ⟨first⟩
  rcases second with ⟨second⟩
  refine congrArg mk (Vector.ext fun index bound => ?_)
  simpa [read, Nat.mod_eq_of_lt bound] using same (UInt16.ofNat index)

@[simp] theorem length_readBlock (ram : Ram) (address : UInt16) (length : Nat) :
    (ram.readBlock address length).length = length := by
  simp [readBlock]

end Ram

end NesMachine
