import NesMachine.Proofs.Memory.Block
import NesMachine.Proofs.Memory.Request
import NesMachine.Proofs.Simulation

/-!
# `NesMachine/Proofs/Memory/Fields.lean` — a memory as a buffer and a flag

No `Memory` is on and short of cells, or off and still in possession of some. A record of a buffer
and a flag can be both, and then it is the operations that keep it from becoming so. Here are the
operations on such a record (`Fields`): each looks at the flag first, and at the size of the buffer
where a place in it is wanted.

A memory, shown as a record (`Memory.fields`), is seen to do on every request what the record does
(`seen_request`), and so is a run (`fields_afterRequests`). The record that a memory shows is always
one that requests lead to, and no others are led to (`reached_iff`): the type of memories leaves out
what cannot come about, and nothing else.
-/

set_option autoImplicit false

namespace NesMachine

namespace Memory

/-- A buffer and a flag, either of them in any state. -/
structure Fields where
  cells : Array UInt8
  isOn : Bool

namespace Fields

/-- No buffer, and the flag down. -/
def fresh : Fields := ⟨#[], false⟩

/-! ## Operations -/

/-- Refuses while the flag is down. -/
def requireOn : Action Fields Unit := .require isOn (.uninitialized .memory)

def powerOn : Action Fields Unit := do
  .require (!·.isOn) (.alreadyInitialized .memory)
  .update fun _ => ⟨.replicate Ram.size 0, true⟩
  .log .info "memory initialized (65536 bytes)"

def powerOff : Action Fields Unit := do
  requireOn
  .update fun _ => ⟨#[], false⟩
  .log .info "memory uninitialized"

/-- Fills the buffer with zeros, however long it is. -/
def clear : Action Fields Unit := do
  requireOn
  .update fun fields => { fields with cells := fields.cells.map fun _ => 0 }

/-- The byte at a place in the buffer, if the buffer reaches there. -/
def lookup (fields : Fields) (address : Nat) : Except Fault UInt8 :=
  match fields.cells[address]? with
  | some value => .ok value
  | none => .error (.invalidAddress address)

def peek (address : Nat) : Action Fields UInt8 := do
  requireOn
  .ask (·.lookup address)

def alter (address : Nat) (change : UInt8 → UInt8) : Action Fields Unit := do
  let value ← peek address
  .update fun fields => { fields with cells := fields.cells.setIfInBounds address (change value) }

/-- What is left when the buffer alone was changed. -/
def changed (cells : Array UInt8) : Outcome Fields Unit := ⟨.ok (), ⟨cells, true⟩, []⟩

/-- The buffer with `bytes` in the place of what was there, from `address` on. -/
def overwrite (cells : Array UInt8) (address : Nat) (bytes : List UInt8) : Array UInt8 :=
  cells.extract 0 address ++ bytes.toArray ++ cells.extract (address + bytes.length)

/-- Refuses a block that starts outside the buffer or has its last byte there. -/
def fits (fields : Fields) (address length : Nat) : Except Fault Unit :=
  if fields.cells.size ≤ address then .error (.invalidAddress address)
  else if fields.cells.size < blockEnd address length then
    .error (.invalidAddress (blockEnd address length - 1))
  else .ok ()

def write (address : Nat) (bytes : List UInt8) : Action Fields Unit := do
  requireOn
  .ask (·.fits address bytes.length)
  .update fun fields => { fields with cells := overwrite fields.cells address bytes }

theorem getElem?_overwrite {cells : Array UInt8} {address : Nat} {bytes : List UInt8}
    (hfit : address + bytes.length ≤ cells.size) (a : Nat) :
    (overwrite cells address bytes)[a]?
      = if address ≤ a ∧ a < address + bytes.length then bytes[a - address]? else cells[a]? := by
  have hbefore : (cells.extract 0 address).size = address := by
    rw [Array.size_extract]
    omega
  have hthrough : (cells.extract 0 address ++ bytes.toArray).size = address + bytes.length := by
    rw [Array.size_append, hbefore, List.size_toArray]
  rw [overwrite]
  by_cases hlow : a < address
  · rw [if_neg (by omega), Array.getElem?_append_left (by omega),
      Array.getElem?_append_left (by omega), Array.getElem?_extract, if_pos (by omega), Nat.zero_add]
  · by_cases hhigh : address + bytes.length ≤ a
    · rw [if_neg (by omega), Array.getElem?_append_right (by omega), hthrough,
        Array.getElem?_extract, Nat.add_sub_cancel' hhigh]
      by_cases hin : a < cells.size
      · exact if_pos (by omega)
      · rw [if_neg (by omega), Array.getElem?_eq_none (Nat.le_of_not_lt hin)]
    · rw [if_pos (by omega), Array.getElem?_append_left (by omega),
        Array.getElem?_append_right (by omega), hbefore, List.getElem?_toArray]

end Fields

/-- A request of a record. A word asks as its number does. -/
def Request.onFields : Request → Action Fields Answer
  | powerOn => do Fields.powerOn; return .nothing
  | powerOff => do Fields.powerOff; return .nothing
  | clear => do Fields.clear; return .nothing
  | peek address => return .byte (← Fields.peek address)
  | poke address value => do Fields.alter address fun _ => value; return .nothing
  | hasFlags address mask => return .flag ((← Fields.peek address) &&& mask == mask)
  | setFlags address mask => do Fields.alter address (· ||| mask); return .nothing
  | clearFlags address mask => do Fields.alter address (· &&& ~~~mask); return .nothing
  | write address bytes => do Fields.write address bytes; return .nothing
  | readByte address => return .byte (← Fields.peek address.toNat)
  | writeByte address value => do Fields.alter address.toNat fun _ => value; return .nothing

/-- The record after some requests, granted or refused. -/
def Fields.afterRequests : List Request → Fields → Fields
  | [], fields => fields
  | request :: requests, fields => afterRequests requests (request.onFields fields).state

end Memory

/-! ## Cells as a buffer -/

namespace Ram

/-- The cells in a row. -/
def buffer (ram : Ram) : Array UInt8 := ram.cells.toArray

variable (ram : Ram)

@[simp] theorem size_buffer : ram.buffer.size = 65536 := ram.cells.size_toArray

theorem getElem_buffer {a : Nat} (h : a < ram.buffer.size) :
    ram.buffer[a] = ram.read (.ofNat a) := by
  rw [size_buffer] at h
  have ha : (UInt16.ofNat a).toNat = a := UInt16.toNat_ofNat_of_lt' h
  simp [buffer, read, ha]

theorem getElem?_buffer {a : Nat} (h : a < 65536) :
    ram.buffer[a]? = some (ram.read (.ofNat a)) := by
  rw [Array.getElem?_eq_getElem (by simpa using h), getElem_buffer]

theorem map_zero_buffer : ram.buffer.map (fun _ => 0) = zeros.buffer := by
  refine Array.ext (by simp) fun a _ h => ?_
  rw [Array.getElem_map, getElem_buffer, read_zeros]

theorem buffer_write {address : Nat} (h : address < 65536) (value : UInt8) :
    (ram.write (.ofNat address) value).buffer = ram.buffer.setIfInBounds address value := by
  refine Array.ext (by simp) fun a ha _ => ?_
  rw [size_buffer] at ha
  have hcell : UInt16.ofNat address = .ofNat a ↔ address = a := by
    rw [← UInt16.toNat_inj, UInt16.toNat_ofNat_of_lt' h, UInt16.toNat_ofNat_of_lt' ha]
  rw [getElem_buffer, read_write, Array.getElem_setIfInBounds (by simpa using ha), getElem_buffer]
  simp only [hcell]

theorem buffer_writeBlock {address : Nat} {bytes : List UInt8} (h : address < 65536)
    (hfit : address + bytes.length ≤ 65536) :
    (ram.writeBlock (.ofNat address) bytes).buffer
      = Memory.Fields.overwrite ram.buffer address bytes := by
  have hfirst : (UInt16.ofNat address).toNat = address := UInt16.toNat_ofNat_of_lt' h
  refine Array.ext_getElem? fun a => ?_
  rw [Memory.Fields.getElem?_overwrite (by simpa using hfit)]
  by_cases ha : a < 65536
  · have hword : (UInt16.ofNat a).toNat = a := UInt16.toNat_ofNat_of_lt' ha
    rw [getElem?_buffer _ ha, getElem?_buffer _ ha]
    by_cases hin : address ≤ a ∧ a < address + bytes.length
    · have hat : a - address < bytes.length := by omega
      rw [if_pos hin, List.getElem?_eq_getElem hat]
      exact congrArg some (read_writeBlock_of_inside (by omega) hat (by omega))
    · rw [if_neg hin]
      exact congrArg some (read_writeBlock_of_outside (by omega) (by omega))
  · rw [if_neg (by omega), Array.getElem?_eq_none (by simpa using ha),
      Array.getElem?_eq_none (by simpa using ha)]

end Ram

namespace Memory

/-- The record that a memory shows. -/
def fields : Memory → Fields
  | off => ⟨#[], false⟩
  | on ram => ⟨ram.buffer, true⟩

theorem isOn_fields (memory : Memory) : memory.fields.isOn = memory.isOn := by
  cases memory with
  | off => rfl
  | on ram => rfl

theorem size_cells_fields (memory : Memory) :
    memory.fields.cells.size = if memory.fields.isOn then 65536 else 0 := by
  cases memory with
  | off => rfl
  | on ram => exact ram.size_buffer

theorem lookup_fields (ram : Ram) (address : Nat) :
    (on ram).fields.lookup address = (on ram).peek address := by
  rw [Fields.lookup, peek]
  by_cases hin : address < 65536
  · rw [if_pos (show address < Ram.size from hin)]
    simp only [fields, ram.getElem?_buffer hin]
  · rw [if_neg (show ¬ address < Ram.size from hin)]
    have hnone : ram.buffer[address]? = none :=
      Array.getElem?_eq_none (ram.size_buffer ▸ Nat.le_of_not_lt hin)
    simp only [fields, hnone]

theorem fits_fields (ram : Ram) (address length : Nat) :
    (on ram).fields.fits address length
      = match blockFault address length with
        | some fault => .error fault
        | none => .ok () := by
  rw [Fields.fits, blockFault, show (on ram).fields.cells.size = Ram.size from ram.size_buffer]
  by_cases hin : Ram.size ≤ address
  · rw [if_pos hin, if_pos hin]
  · rw [if_neg hin, if_neg hin]
    by_cases hbeyond : Ram.size < blockEnd address length
    · rw [if_pos hbeyond, if_pos hbeyond]
    · rw [if_neg hbeyond, if_neg hbeyond]

/-! ## The simulation -/

theorem seen_powerOn : powerOn.SeenAs fields Fields.powerOn := by
  intro memory
  cases memory with
  | off => rfl
  | on ram => rfl

theorem seen_powerOff : powerOff.SeenAs fields Fields.powerOff := by
  intro memory
  cases memory with
  | off => rfl
  | on ram => rfl

theorem seen_clear : clear.SeenAs fields Fields.clear := by
  intro memory
  cases memory with
  | off => rfl
  | on ram => exact congrArg Fields.changed ram.map_zero_buffer

theorem seen_peek (address : Nat) :
    (Action.ask fun memory => peek memory address).SeenAs fields (Fields.peek address) := by
  intro memory
  cases memory with
  | off => rfl
  | on ram => exact congrArg (Outcome.mk · (on ram).fields []) (lookup_fields ram address)

theorem seen_alter (address : Nat) (change : UInt8 → UInt8) :
    (alter address change).SeenAs fields (Fields.alter address change) := by
  intro memory
  cases memory with
  | off => rfl
  | on ram =>
    -- The record asks for the byte first, and is refused for it, so there is one case for each side.
    rw [Fields.alter, Action.bind_apply, seen_peek address (on ram), Action.ask_apply, alter, peek]
    by_cases hin : address < Ram.size
    · rw [if_pos hin, if_pos hin]
      exact congrArg Fields.changed (ram.buffer_write hin _).symm
    · rw [if_neg hin, if_neg hin]
      rfl

theorem seen_write (address : Nat) (bytes : List UInt8) :
    (write address bytes).SeenAs fields (Fields.write address bytes) := by
  intro memory
  cases memory with
  | off => rfl
  | on ram =>
    have hfits := fits_fields ram address bytes.length
    refine (Action.require_bind_of_true _ _ rfl).trans ?_
    rw [Action.bind_apply, Action.ask_apply, hfits, write]
    cases hfault : blockFault address bytes.length with
    | some fault => rfl
    | none =>
      obtain ⟨hfirst, hfit⟩ := blockFault_eq_none_iff.mp hfault
      exact congrArg Fields.changed (ram.buffer_writeBlock hfirst hfit).symm

/-- **A memory does on every request what the record does that it shows.** -/
theorem seen_request (request : Request) : request.action.SeenAs fields request.onFields := by
  cases request with
  | powerOn => exact seen_powerOn.bind fun _ => Action.seenAs_pure _
  | powerOff => exact seen_powerOff.bind fun _ => Action.seenAs_pure _
  | clear => exact seen_clear.bind fun _ => Action.seenAs_pure _
  | peek address => exact (seen_peek address).bind fun _ => Action.seenAs_pure _
  | poke address value => exact (seen_alter address _).bind fun _ => Action.seenAs_pure _
  | hasFlags address mask =>
    rw [action_hasFlags]
    exact (seen_peek address).bind fun _ => Action.seenAs_pure _
  | setFlags address mask => exact (seen_alter address _).bind fun _ => Action.seenAs_pure _
  | clearFlags address mask => exact (seen_alter address _).bind fun _ => Action.seenAs_pure _
  | write address bytes => exact (seen_write address bytes).bind fun _ => Action.seenAs_pure _
  | readByte address =>
    rw [action_readByte]
    exact (seen_peek address.toNat).bind fun _ => Action.seenAs_pure _
  | writeByte address value =>
    rw [action_writeByte]
    exact (seen_alter address.toNat _).bind fun _ => Action.seenAs_pure _

theorem fields_afterRequests (requests : List Request) (memory : Memory) :
    Fields.afterRequests requests memory.fields = (afterRequests requests memory).fields := by
  induction requests generalizing memory with
  | nil => rfl
  | cons request requests ih =>
    rw [Fields.afterRequests, seen_request request memory]
    exact ih _

/-! ## Which records come about -/

/-- Whatever is in the cells of a memory, one block puts it there. -/
theorem afterRequests_fill (ram : Ram) :
    afterRequests [.powerOn, .write 0 ram.buffer.toList] off = on ram := by
  have hlength : ram.buffer.toList.length = 65536 := by
    rw [Array.length_toList, ram.size_buffer]
  have hcells : Ram.zeros.writeBlock (.ofNat 0) ram.buffer.toList = ram := by
    refine Ram.ext fun a => ?_
    have ha : a.toNat < ram.buffer.toList.length := hlength ▸ a.toNat_lt
    rw [Ram.read_writeBlock_of_inside (i := a.toNat) (by rw [hlength]; decide) ha
      (Nat.zero_add _).symm, Array.getElem_toList, ram.getElem_buffer, UInt16.ofNat_toNat]
  have hwrite : write 0 ram.buffer.toList (on .zeros) = ⟨.ok (), on ram, []⟩ := by
    rw [write_on (by decide) (by rw [hlength]; decide), hcells]
  exact congrArg (fun outcome : Outcome Memory Unit =>
    (outcome.andThen fun _ memory => ⟨.ok Answer.nothing, memory, []⟩).state) hwrite

/-- **A record comes about exactly if a memory shows it.** -/
theorem reached_iff {shown : Fields} :
    (∃ requests, Fields.afterRequests requests .fresh = shown) ↔
      ∃ memory : Memory, memory.fields = shown := by
  constructor
  · rintro ⟨requests, rfl⟩
    exact ⟨afterRequests requests off, (fields_afterRequests requests off).symm⟩
  · rintro ⟨memory, rfl⟩
    cases memory with
    | off => exact ⟨[], rfl⟩
    | on ram =>
      refine ⟨[.powerOn, .write 0 ram.buffer.toList], ?_⟩
      exact (fields_afterRequests _ off).trans (congrArg fields (afterRequests_fill ram))

end Memory

end NesMachine
