import Mathlib.Logic.Function.Basic
import NesMachine.Proofs.Memory.Fields

/-!
# `NesMachine/Proofs/Memory/Map.lean` — memory is a map that may be there or not

A memory has eleven ways in, and they come to five kinds of work (`Work`): the two switches, clearing,
one cell, a block. `Work.Allows` says what each of them may do to a map from addresses to bytes, or
to the lack of one, without a word about how a memory keeps its cells. `allows_action` is the step of
the refinement, `follows_history` the run.

What a cell holds can also be told without any map, from what was asked and what came of it: it is
the last byte that was stored there (`lastStored`). That is a fact about maps (`Follows.records`), so
nothing about memories is proved twice. Refused requests are part of the record and count for
nothing.
-/

set_option autoImplicit false

namespace NesMachine

namespace Memory

/-! ## Maps -/

/-- A byte for every address. -/
abbrev Map := Fin 65536 → UInt8

/-- The map with the bytes of a block from an address on. -/
def Map.setBlock (map : Map) (first : Nat) (bytes : List UInt8) : Map := fun a =>
  if h : first ≤ a.val ∧ a.val < first + bytes.length then bytes[a.val - first] else map a

end Memory

/-- The cells as a map. -/
def Ram.map (ram : Ram) : Memory.Map := fun a => ram.read (UInt16.ofNat a.val)

namespace Memory

/-- The map that a memory is, or none while it is off. -/
def map? : Memory → Option Map
  | off => none
  | on ram => some ram.map

/-! ## What is asked of a map -/

/-- What a request comes to. Work on one cell is given by what becomes of the byte in it, and by
what is answered, both as functions of the byte that was there. -/
inductive Work where
  | powerOn
  | powerOff
  | clear
  | cell (address : Nat) (change : UInt8 → UInt8) (answer : UInt8 → Answer)
  | block (address : Nat) (bytes : List UInt8)

def Request.work : Request → Work
  | powerOn => .powerOn
  | powerOff => .powerOff
  | clear => .clear
  | peek address => .cell address id .byte
  | poke address value => .cell address (fun _ => value) fun _ => .nothing
  | hasFlags address mask => .cell address id fun byte => .flag (byte &&& mask == mask)
  | setFlags address mask => .cell address (· ||| mask) fun _ => .nothing
  | clearFlags address mask => .cell address (· &&& ~~~mask) fun _ => .nothing
  | write address bytes => .block address bytes
  | readByte address => .cell address.toNat id .byte
  | writeByte address value => .cell address.toNat (fun _ => value) fun _ => .nothing

/-- The map admits this result, and this map, or none, after it. -/
def Work.Allows (work : Work) (before : Option Map) (result : Except Fault Answer)
    (later : Option Map) : Prop :=
  match before, work with
  | none, powerOn => result = .ok .nothing ∧ later = some fun _ => 0
  | none, _ => result = .error (.uninitialized .memory) ∧ later = none
  | some map, powerOn => result = .error (.alreadyInitialized .memory) ∧ later = some map
  | some _, powerOff => result = .ok .nothing ∧ later = none
  | some _, clear => result = .ok .nothing ∧ later = some fun _ => 0
  | some map, cell address change answer =>
    if h : address < 65536 then
      result = .ok (answer (map ⟨address, h⟩)) ∧
        later = some (Function.update map ⟨address, h⟩ (change (map ⟨address, h⟩)))
    else result = .error (.invalidAddress address) ∧ later = some map
  | some map, block address bytes =>
    if address < 65536 ∧ address + bytes.length ≤ 65536 then
      result = .ok .nothing ∧ later = some (map.setBlock address bytes)
    else (∃ a, 65536 ≤ a ∧ result = .error (.invalidAddress a)) ∧ later = some map

/-! ## Histories -/

/-- A request and what came of it. -/
structure Event where
  request : Request
  result : Except Fault Answer

/-- What came of each request, oldest first. -/
def history : List Request → Memory → List Event
  | [], _ => []
  | request :: requests, memory =>
    ⟨request, (request.action memory).result⟩ :: history requests (request.action memory).state

/-- A map, or the lack of one, admits these events in a row, and this map, or none, after them. -/
inductive Follows : Option Map → List Event → Option Map → Prop where
  | nil (map : Option Map) : Follows map [] map
  | cons {event : Event} {events : List Event} {before between later : Option Map}
      (first : event.request.work.Allows before event.result between)
      (rest : Follows between events later) : Follows before (event :: events) later

/-- The last byte that was stored at an address, by events of which the latest comes first. A cell
has zero in it to begin with, and again when the memory was switched or cleared. -/
def lastStored (a : Nat) : List Event → UInt8
  | [] => 0
  | ⟨_, .error _⟩ :: earlier => lastStored a earlier
  | ⟨request, .ok _⟩ :: earlier =>
    match request.work with
    | .powerOn | .powerOff | .clear => 0
    | .cell address change _ =>
      if address = a then change (lastStored a earlier) else lastStored a earlier
    | .block address bytes =>
      if h : address ≤ a ∧ a < address + bytes.length then bytes[a - address]
      else lastStored a earlier

end Memory

/-! ## Cells as a map -/

namespace Ram

variable (ram : Ram)

theorem map_zeros : zeros.map = fun _ => 0 := by
  funext a
  exact read_zeros _

theorem map_write {address : Nat} (h : address < 65536) (value : UInt8) :
    (ram.write (.ofNat address) value).map = Function.update ram.map ⟨address, h⟩ value := by
  funext a
  have hcell : UInt16.ofNat address = .ofNat a.val ↔ a = ⟨address, h⟩ := by
    rw [← UInt16.toNat_inj, UInt16.toNat_ofNat_of_lt' h, UInt16.toNat_ofNat_of_lt' a.isLt,
      Fin.ext_iff, eq_comm]
  rw [map, read_write, Function.update_apply]
  simp only [hcell]
  rfl

theorem map_writeBlock {first : Nat} {bytes : List UInt8} (hfirst : first < 65536)
    (hfit : first + bytes.length ≤ 65536) :
    (ram.writeBlock (.ofNat first) bytes).map = ram.map.setBlock first bytes := by
  funext a
  have hnum : (UInt16.ofNat first).toNat = first := UInt16.toNat_ofNat_of_lt' hfirst
  have ha : (UInt16.ofNat a.val).toNat = a.val := UInt16.toNat_ofNat_of_lt' a.isLt
  rw [map, Memory.Map.setBlock]
  by_cases h : first ≤ a.val ∧ a.val < first + bytes.length
  · rw [dif_pos h]
    exact read_writeBlock_of_inside (by omega) (by omega) (by omega)
  · rw [dif_neg h]
    exact read_writeBlock_of_outside (by omega) (by omega)

theorem map_injective : Function.Injective map := by
  intro first second h
  refine ext fun address => ?_
  have hcell := congrFun h ⟨address.toNat, address.toNat_lt⟩
  rw [map, map, UInt16.ofNat_toNat] at hcell
  exact hcell

theorem write_read (address : UInt16) : ram.write address (ram.read address) = ram := by
  refine ext fun a => ?_
  rw [read_write]
  by_cases h : address = a
  · rw [if_pos h, h]
  · rw [if_neg h]

end Ram

namespace Memory

theorem map?_injective : Function.Injective map? := by
  intro first second h
  cases first with
  | off =>
    cases second with
    | off => rfl
    | on ram => cases h
  | on ram =>
    cases second with
    | off => cases h
    | on other => exact congrArg on (Ram.map_injective (Option.some.inj h))

variable {request : Request} {address : Nat} {change : UInt8 → UInt8} {answer : UInt8 → Answer}

/-! ## What a request does to a memory that is on -/

variable (ram : Ram)

/-- What comes of work on one cell. -/
def cellOutcome (address : Nat) (change : UInt8 → UInt8) (answer : UInt8 → Answer) :
    Outcome Memory Answer :=
  if address < 65536 then
    ⟨.ok (answer (ram.read (.ofNat address))),
      on (ram.write (.ofNat address) (change (ram.read (.ofNat address)))), []⟩
  else ⟨.error (.invalidAddress address), on ram, []⟩

theorem alter_on (address : Nat) (change : UInt8 → UInt8) :
    (alter address change >>= fun _ => pure Answer.nothing) (on ram)
      = cellOutcome ram address change fun _ => .nothing := by
  rw [Action.bind_apply, alter, cellOutcome]
  by_cases hin : address < 65536
  · rw [if_pos (show address < Ram.size from hin), if_pos hin]
    rfl
  · rw [if_neg (show ¬ address < Ram.size from hin), if_neg hin]
    rfl

/-- A question about one cell, answered. -/
theorem ask_on (address : Nat) (answer : UInt8 → Answer) :
    ((Action.ask fun memory => peek memory address) >>= fun byte => pure (answer byte)) (on ram)
      = cellOutcome ram address id answer := by
  rw [Action.bind_apply, Action.ask_apply, peek, cellOutcome, id, Ram.write_read]
  by_cases hin : address < 65536
  · rw [if_pos (show address < Ram.size from hin), if_pos hin]
    rfl
  · rw [if_neg (show ¬ address < Ram.size from hin), if_neg hin]
    rfl

/-- **Every way to a cell is the same way**, whatever is done there. -/
theorem action_cell (h : request.work = .cell address change answer) :
    request.action (on ram) = cellOutcome ram address change answer := by
  cases request with
  | powerOn | powerOff | clear | write _ _ => cases h
  | peek _ =>
    cases h
    exact ask_on ram address .byte
  | hasFlags _ mask =>
    cases h
    rw [action_hasFlags]
    exact ask_on ram address fun byte => .flag (byte &&& mask == mask)
  | readByte word =>
    cases h
    rw [action_readByte]
    exact ask_on ram word.toNat .byte
  | poke _ value =>
    cases h
    exact alter_on ram _ _
  | setFlags _ mask =>
    cases h
    exact alter_on ram _ _
  | clearFlags _ mask =>
    cases h
    exact alter_on ram _ _
  | writeByte word value =>
    cases h
    rw [action_writeByte]
    exact alter_on ram _ _

variable {bytes : List UInt8}

theorem action_block_inside (hin : address < 65536) (hfit : address + bytes.length ≤ 65536) :
    (Request.write address bytes).action (on ram)
      = ⟨.ok .nothing, on (ram.writeBlock (.ofNat address) bytes), []⟩ := by
  rw [Request.action, Action.bind_apply, write_on hin hfit]
  rfl

/-- The address in the fault is not that of a cell, also where the end of the block is cut. -/
theorem action_block_outside (hout : ¬ (address < 65536 ∧ address + bytes.length ≤ 65536)) :
    ∃ a, 65536 ≤ a ∧ (Request.write address bytes).action (on ram)
      = ⟨.error (.invalidAddress a), on ram, []⟩ := by
  obtain ⟨a, ha, hfault⟩ := blockFault_of_outside hout
  refine ⟨a, ha, ?_⟩
  rw [Request.action, Action.bind_apply, Memory.write, hfault]
  rfl

/-! ## The refinement -/

theorem allows_cell (h : request.work = .cell address change answer) :
    (Work.cell address change answer).Allows (some ram.map) (request.action (on ram)).result
      (request.action (on ram)).state.map? := by
  rw [action_cell ram h, cellOutcome]
  by_cases hin : address < 65536
  · rw [if_pos hin]
    exact (dif_pos hin).mpr ⟨rfl, congrArg some (ram.map_write hin _)⟩
  · rw [if_neg hin]
    exact (dif_neg hin).mpr ⟨rfl, rfl⟩

/-- **One request does what the map says.** -/
theorem allows_action (request : Request) (memory : Memory) :
    request.work.Allows memory.map? (request.action memory).result
      (request.action memory).state.map? := by
  cases memory with
  | off =>
    cases request with
    | powerOn => exact ⟨rfl, congrArg some Ram.map_zeros⟩
    | _ => exact ⟨rfl, rfl⟩
  | on ram =>
    cases request with
    | powerOn => exact ⟨rfl, rfl⟩
    | powerOff => exact ⟨rfl, rfl⟩
    | clear => exact ⟨rfl, congrArg some Ram.map_zeros⟩
    | write address bytes =>
      by_cases hfits : address < 65536 ∧ address + bytes.length ≤ 65536
      · rw [action_block_inside ram hfits.1 hfits.2]
        refine (if_pos hfits).mpr ⟨rfl, ?_⟩
        exact congrArg some (ram.map_writeBlock hfits.1 hfits.2)
      · obtain ⟨a, ha, haction⟩ := action_block_outside ram hfits
        rw [haction]
        exact (if_neg hfits).mpr ⟨⟨a, ha, rfl⟩, rfl⟩
    | peek | poke | hasFlags | setFlags | clearFlags | readByte | writeByte =>
      exact allows_cell ram rfl

/-- A history is one that the map admits, and leaves what the map leaves. -/
theorem follows_history (requests : List Request) (memory : Memory) :
    Follows memory.map? (history requests memory) (afterRequests requests memory).map? := by
  induction requests generalizing memory with
  | nil => exact .nil _
  | cons request requests ih => exact .cons (allows_action request memory) (ih _)

section

variable {map : Map} {result : Except Fault Answer} {later : Option Map} {bytes : List UInt8}

theorem Work.Allows.granted_cell_iff
    (h : (Work.cell address change answer).Allows (some map) result later) :
    (∃ reply, result = .ok reply) ↔ address < 65536 := by
  by_cases hin : address < 65536
  · obtain ⟨rfl, -⟩ := (dif_pos hin).mp h
    exact ⟨fun _ => hin, fun _ => ⟨_, rfl⟩⟩
  · obtain ⟨rfl, -⟩ := (dif_neg hin).mp h
    refine ⟨?_, fun hlt => absurd hlt hin⟩
    rintro ⟨_, hreply⟩
    cases hreply

/-- A block is granted as a whole or not at all. -/
theorem Work.Allows.granted_block
    (h : (Work.block address bytes).Allows (some map) result later) :
    ((∃ reply, result = .ok reply) ↔ address < 65536 ∧ address + bytes.length ≤ 65536) ∧
    ((∃ reply, result = .ok reply) → later = some (map.setBlock address bytes)) := by
  by_cases hfits : address < 65536 ∧ address + bytes.length ≤ 65536
  · obtain ⟨rfl, rfl⟩ := (if_pos hfits).mp h
    exact ⟨⟨fun _ => hfits, fun _ => ⟨_, rfl⟩⟩, fun _ => rfl⟩
  · obtain ⟨⟨a, ha, rfl⟩, -⟩ := (if_neg hfits).mp h
    have hrefused : ¬ ∃ reply, (Except.error (.invalidAddress a) : Except Fault Answer)
        = .ok reply := by
      rintro ⟨_, hreply⟩
      cases hreply
    exact ⟨⟨fun h => absurd h hrefused, fun h => absurd h hfits⟩, fun h => absurd h hrefused⟩

/-- A map refuses addresses that it does not have, and nothing else, and stays as it is. -/
theorem Work.Allows.refused {work : Work} {fault : Fault}
    (h : work.Allows (some map) (.error fault) later) (hp : work ≠ .powerOn) :
    (∃ a, 65536 ≤ a ∧ fault = .invalidAddress a) ∧ later = some map := by
  cases work with
  | powerOn => exact absurd rfl hp
  | powerOff => cases h.1
  | clear => cases h.1
  | cell address change answer =>
    by_cases hin : address < 65536
    · cases ((dif_pos hin).mp h).1
    · obtain ⟨hfault, rfl⟩ := (dif_neg hin).mp h
      cases hfault
      exact ⟨⟨address, Nat.le_of_not_lt hin, rfl⟩, rfl⟩
  | block address bytes =>
    by_cases hfits : address < 65536 ∧ address + bytes.length ≤ 65536
    · cases ((if_pos hfits).mp h).1
    · obtain ⟨⟨a, ha, hfault⟩, rfl⟩ := (if_neg hfits).mp h
      cases hfault
      exact ⟨⟨a, ha, rfl⟩, rfl⟩

end

theorem Request.eq_powerOn (h : request.work = .powerOn) : request = .powerOn := by
  cases request with
  | powerOn => rfl
  | _ => cases h

/-! ## The last byte stored -/

/-- The map, if there is one, has the last byte that was stored at every address. -/
def Records (past : List Event) (map? : Option Map) : Prop :=
  ∀ map, map? = some map → ∀ a, map a = lastStored a.val past

theorem records_none (past : List Event) : Records past none := by
  intro map h
  cases h

theorem records_some {past : List Event} {map : Map} :
    Records past (some map) ↔ ∀ a, map a = lastStored a.val past := by
  refine ⟨fun h => h map rfl, ?_⟩
  rintro h _ ⟨⟩
  exact h

/-- One event is recorded. -/
theorem Work.Allows.records {before later : Option Map} {past : List Event}
    {result : Except Fault Answer} (h : request.work.Allows before result later)
    (hpast : Records past before) : Records (⟨request, result⟩ :: past) later := by
  cases before with
  | none =>
    cases hwork : request.work with
    | powerOn =>
      rw [hwork] at h
      obtain ⟨rfl, rfl⟩ := h
      rw [records_some]
      intro a
      rw [lastStored, hwork]
    | _ =>
      rw [hwork] at h
      obtain ⟨-, rfl⟩ := h
      exact records_none _
  | some map =>
    rw [records_some] at hpast
    cases hwork : request.work with
    | powerOn =>
      rw [hwork] at h
      obtain ⟨rfl, rfl⟩ := h
      exact records_some.mpr hpast
    | powerOff =>
      rw [hwork] at h
      obtain ⟨-, rfl⟩ := h
      exact records_none _
    | clear =>
      rw [hwork] at h
      obtain ⟨rfl, rfl⟩ := h
      rw [records_some]
      intro a
      rw [lastStored, hwork]
    | cell address change answer =>
      rw [hwork] at h
      by_cases hin : address < 65536
      · obtain ⟨rfl, rfl⟩ := (dif_pos hin).mp h
        rw [records_some]
        intro a
        rw [lastStored, hwork, Function.update_apply, hpast, hpast]
        by_cases hat : a = ⟨address, hin⟩
        · rw [if_pos hat, hat]
          exact (if_pos rfl).symm
        · rw [if_neg hat]
          exact (if_neg fun he => hat (Fin.ext he.symm)).symm
      · obtain ⟨rfl, rfl⟩ := (dif_neg hin).mp h
        exact records_some.mpr hpast
    | block address bytes =>
      rw [hwork] at h
      by_cases hfits : address < 65536 ∧ address + bytes.length ≤ 65536
      · obtain ⟨rfl, rfl⟩ := (if_pos hfits).mp h
        rw [records_some]
        intro a
        rw [lastStored, hwork, Map.setBlock, hpast]
      · obtain ⟨⟨_, -, rfl⟩, rfl⟩ := (if_neg hfits).mp h
        exact records_some.mpr hpast

theorem Follows.records {before later : Option Map} {events past : List Event}
    (h : Follows before events later) (hpast : Records past before) :
    Records (events.reverse ++ past) later := by
  induction h generalizing past with
  | nil map => exact hpast
  | cons first rest ih =>
    rw [List.reverse_cons, List.append_assoc]
    exact ih (first.records hpast)

theorem peek_map {memory : Memory} {map : Map} (h : memory.map? = some map) (a : Fin 65536) :
    memory.peek a.val = .ok (map a) := by
  cases memory with
  | off => cases h
  | on ram =>
    cases h
    exact if_pos a.isLt

/-! ## Memory as a map -/

/-- **A memory is a map that may be there or not**, and every way in agrees on it.

A history that begins with a memory that is off is one that the lack of a map admits, and leaves the
map, or the lack of one, that the history leaves. In particular a cell holds the last byte that was
stored there.

While the memory is on, work on one cell is granted exactly if its address is below 65536. A block
is granted exactly if it starts and ends there, and then its bytes are in place, and every other
cell is as it was. A request that is refused, other than to switch on, names an address from 65536
on and leaves the memory as it was. While the memory is off, it refuses everything but being
switched on, for no other reason than that, and stays off. There are 65536 cells or none.

All this is as true of a record of a buffer and a flag. After any requests its buffer has 65536
bytes or, with the flag down, none, and on the next request it gives the answer that the memory
gives, and becomes the record that the memory shows. -/
theorem history_is_of_map :
    (∀ requests : List Request,
      let events := history requests off
      let memory := afterRequests requests off
      Follows none events memory.map? ∧
      (memory.isOn = true →
        ∀ a < 65536, memory.peek a = .ok (lastStored a events.reverse))) ∧
    (∀ (ram : Ram) (request : Request) (address : Nat) (change : UInt8 → UInt8)
        (answer : UInt8 → Answer), request.work = .cell address change answer →
      ((∃ reply, (request.action (on ram)).result = .ok reply) ↔ address < 65536)) ∧
    (∀ (ram : Ram) (address : Nat) (bytes : List UInt8),
      let outcome := (Request.write address bytes).action (on ram)
      ((∃ reply, outcome.result = .ok reply) ↔
        address < 65536 ∧ address + bytes.length ≤ 65536) ∧
      ((∃ reply, outcome.result = .ok reply) →
        outcome.state.map? = some (ram.map.setBlock address bytes))) ∧
    (∀ (ram : Ram) (request : Request) (fault : Fault), request ≠ .powerOn →
      (request.action (on ram)).result = .error fault →
      (∃ a, 65536 ≤ a ∧ fault = .invalidAddress a) ∧ (request.action (on ram)).state = on ram) ∧
    (∀ request : Request, request ≠ .powerOn →
      request.action off = ⟨.error (.uninitialized .memory), off, []⟩) ∧
    (∀ memory : Memory, memory.size = if memory.isOn then 65536 else 0) ∧
    ∀ requests : List Request,
      let record := Fields.afterRequests requests .fresh
      let memory := afterRequests requests off
      record.isOn = memory.isOn ∧
      (record.cells.size = if record.isOn then 65536 else 0) ∧
      ∀ request : Request, request.onFields record = (request.action memory).within fields := by
  refine ⟨?_, ?_, ?_, ?_, ?_, size_eq, ?_⟩
  · intro requests events memory
    have hfollows : Follows none events memory.map? := follows_history requests off
    refine ⟨hfollows, ?_⟩
    intro hon a ha
    have hrecords := hfollows.records (records_none [])
    rw [List.append_nil] at hrecords
    obtain ⟨map, hmap⟩ : ∃ map, memory.map? = some map := by
      cases hmemory : memory with
      | off =>
        rw [hmemory] at hon
        cases hon
      | on ram => exact ⟨ram.map, rfl⟩
    rw [peek_map hmap ⟨a, ha⟩, hrecords map hmap]
  · intro ram request address change answer hwork
    have hallows := allows_action request (on ram)
    rw [hwork] at hallows
    exact hallows.granted_cell_iff
  · intro ram address bytes outcome
    exact (allows_action (.write address bytes) (on ram)).granted_block
  · intro ram request fault hp hresult
    have hallows := allows_action request (on ram)
    rw [hresult] at hallows
    obtain ⟨hfault, hstate⟩ := hallows.refused (mt Request.eq_powerOn hp)
    exact ⟨hfault, map?_injective hstate⟩
  · intro request hp
    exact request_off hp
  · intro requests record memory
    have hrecord : record = memory.fields := fields_afterRequests requests off
    rw [hrecord]
    exact ⟨memory.isOn_fields, memory.size_cells_fields, fun request => seen_request request memory⟩

/-- Bytes stored by every route at both ends of the address space; some of them are refused. -/
def edgeRequests : List Request :=
  [.poke 3 9, .powerOn, .write 65534 [7, 8], .write 65535 [1, 2], .setFlags 65535 0x81,
    .poke 65536 9, .writeByte 0 5]

/-- The block that ends at the last cell is in place, with two bits set later in its last byte. The
block that ends one cell after it, and the cell there, were refused, and so was what came before the
memory was on. -/
theorem history_of_edgeRequests :
    (afterRequests edgeRequests off).isOn = true ∧
    (afterRequests edgeRequests off).peek 65534 = .ok 7 ∧
    (afterRequests edgeRequests off).peek 65535 = .ok 0x89 ∧
    (afterRequests edgeRequests off).peek 0 = .ok 5 ∧
    (afterRequests edgeRequests off).peek 3 = .ok 0 ∧
    (¬ ∃ reply, ((Request.poke 65536 9).action (on .zeros)).result = .ok reply) ∧
    ((Request.write 65535 [1, 2]).action (on .zeros)).state = on .zeros ∧
    (Request.poke 3 9).action off = ⟨.error (.uninitialized .memory), off, []⟩ ∧
    (Fields.afterRequests edgeRequests .fresh).cells.size = 65536 := by
  obtain ⟨hruns, hcell, -, hrefused, hoff, -, hrecords⟩ := history_is_of_map
  have hpeek := (hruns edgeRequests).2 rfl
  refine ⟨rfl, ?_, ?_, ?_, ?_, ?_, ?_, ?_, ?_⟩
  · exact (hpeek 65534 (by decide)).trans rfl
  · exact (hpeek 65535 (by decide)).trans rfl
  · exact (hpeek 0 (by decide)).trans rfl
  · exact (hpeek 3 (by decide)).trans rfl
  · rw [hcell .zeros (.poke 65536 9) 65536 (fun _ => 9) (fun _ => .nothing) rfl]
    decide
  · refine (hrefused .zeros (.write 65535 [1, 2]) (.invalidAddress 65536) ?_ rfl).2
    rintro ⟨⟩
  · apply hoff
    rintro ⟨⟩
  · obtain ⟨hon, hsize, -⟩ := hrecords edgeRequests
    rw [hsize, hon]
    rfl

end Memory

end NesMachine
