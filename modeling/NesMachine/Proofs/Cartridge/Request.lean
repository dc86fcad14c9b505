import NesMachine.Proofs.Cartridge.Fields

/-!
# `NesMachine/Proofs/Cartridge/Request.lean` — a slot in somebody's hands

A `Request` is anything that can be asked of a slot from outside. What a granted one leaves is said
once, in `Request.Grants`; a refused one leaves the slot as it was, and `ends_action` is the one
place where the operations are looked into.

Only two of the requests bring bytes with them, and both look at the header first. So a slot that
was off at first never has anything in it but an accepted image (`Sound.afterRequests`), and an image
that is no good, or a file that cannot be read, does not disturb the image before it.

A slot that is kept as a buffer and two flags is seen to do the same on every request
(`seen_request`), and the records that come about are those of sound slots (`reached_iff`).
-/

set_option autoImplicit false

namespace NesMachine

namespace Cartridge

/-! ## Requests -/

/-- What can be asked of a slot from outside. -/
inductive Request where
  | powerOn
  | powerOff
  | load (image : Array UInt8)
  | loadFile (path : String) (read : FileRead)
  | unload
  | header
  | programBank (index : Nat)
  | characterBank (index : Nat)
  | size

inductive Answer where
  | nothing
  | header (header : Header)
  | bank (bytes : Array UInt8)
  | count (bytes : Nat)

def Request.action : Request → Action Cartridge Answer
  | powerOn => do Cartridge.powerOn; return .nothing
  | powerOff => do Cartridge.powerOff; return .nothing
  | load image => do Cartridge.load image; return .nothing
  | loadFile path read => do Cartridge.loadFile path read; return .nothing
  | unload => do Cartridge.unload; return .nothing
  | header => return .header (← .ask Cartridge.header)
  | programBank index => return .bank (← .ask (·.programBank index))
  | characterBank index => return .bank (← .ask (·.characterBank index))
  | size => return .count (← .ask Cartridge.size)

/-- The slot after some requests, granted or refused. -/
def afterRequests : List Request → Cartridge → Cartridge
  | [], cartridge => cartridge
  | request :: requests, cartridge => afterRequests requests (request.action cartridge).state

/-! ## What a request does -/

/-- The request may be granted `before`, and leaves `later`. -/
def Request.Grants (request : Request) (before later : Cartridge) : Prop :=
  match request with
  | powerOn => before = .off ∧ later = .empty
  | powerOff => before.isOn = true ∧ later = .off
  | load image => before.isOn = true ∧ Image.Accepted image ∧ later = .loaded image
  | loadFile _ read =>
    before.isOn = true ∧
      ∃ image, read = .contents image ∧ Image.Accepted image ∧ later = .loaded image
  | unload => before.isLoaded = true ∧ later = .empty
  | header | programBank _ | characterBank _ | size => later = before

variable {cartridge later : Cartridge} {request : Request} {fault : Fault}

theorem ends_silently {action : Action Cartridge Unit} {P : Cartridge → Prop}
    {E : Fault → Cartridge → Prop} (h : (action cartridge).Ends (fun _ => P) E) :
    ((action >>= fun _ => pure Answer.nothing) cartridge).Ends (fun _ => P) E :=
  (Action.ends_bind _ _).mpr h

theorem ends_question {α : Type} (question : Cartridge → Except Fault α) (answer : α → Answer) :
    ((Action.ask question >>= fun value => pure (answer value)) cartridge).Ends
      (fun _ later => later = cartridge) (fun _ later => later = cartridge) := by
  rw [Action.ends_bind, Action.ask_apply]
  cases question cartridge with
  | error fault => rfl
  | ok value => rfl

/-- **A request is granted, or it leaves the slot as it was.** -/
theorem ends_action (request : Request) (cartridge : Cartridge) :
    (request.action cartridge).Ends (fun _ later => request.Grants cartridge later)
      (fun _ later => later = cartridge) := by
  cases request with
  | powerOn =>
    refine ends_silently ?_
    cases cartridge with
    | off => exact ⟨rfl, rfl⟩
    | empty => rfl
    | loaded image => rfl
  | powerOff =>
    refine ends_silently ?_
    cases cartridge with
    | off => rfl
    | empty => exact ⟨rfl, rfl⟩
    | loaded image => exact ⟨rfl, rfl⟩
  | load image =>
    refine ends_silently ?_
    cases hon : cartridge.isOn with
    | false =>
      rw [Cartridge.load, requireOn, Action.require_bind_of_false _ _ hon]
      rfl
    | true =>
      refine (ends_load hon image).mono ?_ ?_
      · intro _ later h
        exact ⟨hon, h⟩
      · intro _ later h
        exact h.2.2
  | loadFile path read =>
    refine ends_silently ?_
    cases hon : cartridge.isOn with
    | false =>
      unfold Cartridge.loadFile
      rw [requireOn, Action.require_bind_of_false _ _ hon]
      rfl
    | true =>
      refine (ends_loadFile hon path read).mono ?_ ?_
      · intro _ later h
        exact ⟨hon, h⟩
      · intro _ later h
        exact h
  | unload =>
    refine ends_silently ?_
    cases cartridge with
    | off => rfl
    | empty => rfl
    | loaded image => exact ⟨rfl, rfl⟩
  | header => exact ends_question _ _
  | programBank index => exact ends_question _ _
  | characterBank index => exact ends_question _ _
  | size => exact ends_question _ _

theorem result_silently {action : Action Cartridge Unit}
    (h : (action cartridge).result = .ok ()) :
    ((action >>= fun _ => pure Answer.nothing) cartridge).result = .ok .nothing := by
  rw [Action.bind_apply]
  generalize action cartridge = outcome at h ⊢
  obtain ⟨fault | value, later, log⟩ := outcome
  · cases h
  · rfl

theorem granted_load_iff {image : Array UInt8} :
    (∃ answer, ((Request.load image).action cartridge).result = .ok answer) ↔
      cartridge.isOn = true ∧ Image.Accepted image := by
  constructor
  · rintro ⟨answer, hresult⟩
    obtain ⟨hon, haccepted, -⟩ := (ends_action (.load image) cartridge).of_ok hresult
    exact ⟨hon, haccepted⟩
  · rintro ⟨hon, haccepted⟩
    exact ⟨.nothing, result_silently (load_of_accepted hon haccepted).1⟩

theorem granted_loadFile_iff {path : String} {read : FileRead} :
    (∃ answer, ((Request.loadFile path read).action cartridge).result = .ok answer) ↔
      cartridge.isOn = true ∧ ∃ image, read = .contents image ∧ Image.Accepted image := by
  constructor
  · rintro ⟨answer, hresult⟩
    obtain ⟨hon, image, hread, haccepted, -⟩ :=
      (ends_action (.loadFile path read) cartridge).of_ok hresult
    exact ⟨hon, image, hread, haccepted⟩
  · rintro ⟨hon, image, rfl, haccepted⟩
    refine ⟨.nothing, result_silently ?_⟩
    rw [result_loadFile hon]
    exact (load_of_accepted hon haccepted).1

/-! ## What is in a slot -/

theorem isOn_of_isLoaded (h : cartridge.isLoaded = true) : cartridge.isOn = true := by
  cases cartridge with
  | loaded image => rfl
  | _ => cases h

theorem exists_loaded (h : cartridge.isLoaded = true) :
    ∃ image, cartridge = .loaded image ∧ cartridge.bytes = image := by
  cases cartridge with
  | loaded image => exact ⟨image, rfl, rfl⟩
  | _ => cases h

theorem bytes_of_not_loaded (h : cartridge.isLoaded = false) : cartridge.bytes = #[] := by
  cases cartridge with
  | loaded image => cases h
  | _ => rfl

theorem size_of_isOn (h : cartridge.isOn = true) : cartridge.size = .ok cartridge.bytes.size := by
  cases cartridge with
  | off => cases h
  | _ => rfl

/-- An image in the slot has a header that was accepted. -/
def Sound (cartridge : Cartridge) : Prop :=
  cartridge.isLoaded = true → Image.Accepted cartridge.bytes

theorem sound_off : Sound off := by
  intro h
  cases h

theorem sound_empty : Sound empty := by
  intro h
  cases h

theorem Request.Grants.sound (h : request.Grants cartridge later) (hs : cartridge.Sound) :
    later.Sound := by
  cases request with
  | powerOn =>
    obtain ⟨-, rfl⟩ := h
    exact sound_empty
  | powerOff =>
    obtain ⟨-, rfl⟩ := h
    exact sound_off
  | load image =>
    obtain ⟨-, haccepted, rfl⟩ := h
    exact fun _ => haccepted
  | loadFile path read =>
    obtain ⟨-, image, -, haccepted, rfl⟩ := h
    exact fun _ => haccepted
  | unload =>
    obtain ⟨-, rfl⟩ := h
    exact sound_empty
  | header | programBank _ | characterBank _ | size =>
    obtain rfl : later = cartridge := h
    exact hs

/-- One request, granted or refused, keeps the slot sound. -/
theorem Sound.action (hs : cartridge.Sound) (request : Request) :
    (request.action cartridge).state.Sound := by
  refine ((ends_action request cartridge).mono ?_ ?_).state
  · intro _ later hgrants
    exact hgrants.sound hs
  · rintro _ later rfl
    exact hs

theorem Sound.afterRequests (hs : cartridge.Sound) (requests : List Request) :
    (Cartridge.afterRequests requests cartridge).Sound := by
  induction requests generalizing cartridge with
  | nil => exact hs
  | cons request requests ih => exact ih (hs.action request)

theorem Sound.header (hs : cartridge.Sound) (hloaded : cartridge.isLoaded = true) :
    ∃ header, cartridge.header = .ok header ∧ header.hasSignature = true ∧
      header.layout = .ines := by
  have haccepted := hs hloaded
  obtain ⟨image, rfl, -⟩ := exists_loaded hloaded
  refine ⟨.ofImage image, Header.parse_of_long haccepted.long, ?_, ?_⟩
  · exact (Header.hasSignature_ofImage haccepted.long).mpr haccepted.magic
  · exact Header.layout_ofImage.mpr haccepted.layout

/-! ## A slot as a record -/

/-- A request of a record. -/
def Request.onFields : Request → Action Fields Answer
  | powerOn => do Fields.powerOn; return .nothing
  | powerOff => do Fields.powerOff; return .nothing
  | load image => do Fields.load image; return .nothing
  | loadFile path read => do Fields.loadFile path read; return .nothing
  | unload => do Fields.unload; return .nothing
  | header => return .header (← Fields.header)
  | programBank index => return .bank (← Fields.programBank index)
  | characterBank index => return .bank (← Fields.characterBank index)
  | size => return .count (← Fields.size)

/-- The record after some requests, granted or refused. -/
def Fields.afterRequests : List Request → Fields → Fields
  | [], fields => fields
  | request :: requests, fields => afterRequests requests (request.onFields fields).state

/-- **A slot does on every request what the record does that it shows.** -/
theorem seen_request (request : Request) : request.action.SeenAs fields request.onFields := by
  cases request with
  | powerOn => exact seen_powerOn.bind fun _ => Action.seenAs_pure _
  | powerOff => exact seen_powerOff.bind fun _ => Action.seenAs_pure _
  | load image => exact (seen_load image).bind fun _ => Action.seenAs_pure _
  | loadFile path read => exact (seen_loadFile path read).bind fun _ => Action.seenAs_pure _
  | unload => exact seen_unload.bind fun _ => Action.seenAs_pure _
  | header => exact seen_header.bind fun _ => Action.seenAs_pure _
  | programBank index => exact (seen_programBank index).bind fun _ => Action.seenAs_pure _
  | characterBank index => exact (seen_characterBank index).bind fun _ => Action.seenAs_pure _
  | size => exact seen_size.bind fun _ => Action.seenAs_pure _

theorem fields_afterRequests (requests : List Request) (cartridge : Cartridge) :
    Fields.afterRequests requests cartridge.fields
      = (Cartridge.afterRequests requests cartridge).fields := by
  induction requests generalizing cartridge with
  | nil => rfl
  | cons request requests ih =>
    rw [Fields.afterRequests, seen_request request cartridge]
    exact ih _

/-- **A record comes about exactly if a sound slot shows it.** -/
theorem reached_iff {shown : Fields} :
    (∃ requests, Fields.afterRequests requests .fresh = shown) ↔
      ∃ cartridge : Cartridge, cartridge.Sound ∧ cartridge.fields = shown := by
  constructor
  · rintro ⟨requests, rfl⟩
    exact ⟨_, sound_off.afterRequests requests, (fields_afterRequests requests .off).symm⟩
  · rintro ⟨cartridge, hs, rfl⟩
    cases cartridge with
    | off => exact ⟨[], rfl⟩
    | empty => exact ⟨[.powerOn], rfl⟩
    | loaded image =>
      have hload : ((Request.load image).action .empty).state = .loaded image := by
        have hgranted := granted_load_iff.mpr ⟨show empty.isOn = true from rfl, hs rfl⟩
        obtain ⟨answer, hresult⟩ := hgranted
        exact ((ends_action (.load image) .empty).of_ok hresult).2.2
      refine ⟨[.powerOn, .load image], ?_⟩
      exact (fields_afterRequests _ .off).trans (congrArg fields hload)

/-! ## A slot that was off at first -/

/-- **There is an accepted image in the slot or none, and a refusal changes nothing.**

After any requests to a slot that was off, whatever bytes, files and numbers came with them: if
there is an image in the slot, then the slot is on, and the image has the sixteen bytes of a header,
the signature, and not the second layout, so its header can be had and is valid. If there is none,
there are no bytes in the slot, and while it is on, its size is zero.

A request that is refused, in whatever state, leaves the slot as it was. An image gets in exactly if
the slot is on and its header is accepted, and a file exactly if, besides, it is there and can be
read; and then this is the image in the slot, whatever was there before.

All this is as true of a record of a buffer and two flags. After any requests a record that counts
as loaded is on and has an accepted image, and one that does not has an empty buffer; a refusal
leaves all three as they were; and every next request gets the answer that the slot gives, and
leaves the record that the slot shows. -/
theorem accepted_or_empty_afterRequests :
    (∀ requests : List Request,
      let cartridge := afterRequests requests .off
      (cartridge.isLoaded = true →
        cartridge.isOn = true ∧ 16 ≤ cartridge.bytes.size ∧
        cartridge.bytes.extract 0 4 = #[0x4E, 0x45, 0x53, 0x1A] ∧
        cartridge.bytes.getD 7 0 >>> 2 &&& 0x03 ≠ 2 ∧
        ∃ header, cartridge.header = .ok header ∧ header.hasSignature = true ∧
          header.layout = .ines) ∧
      (cartridge.isLoaded = false →
        cartridge.bytes = #[] ∧ (cartridge.isOn = true → cartridge.size = .ok 0))) ∧
    (∀ (request : Request) (cartridge : Cartridge) (fault : Fault),
      (request.action cartridge).result = .error fault →
        (request.action cartridge).state = cartridge) ∧
    (∀ (image : Array UInt8) (cartridge : Cartridge),
      let outcome := (Request.load image).action cartridge
      ((∃ answer, outcome.result = .ok answer) ↔
        cartridge.isOn = true ∧ Image.Accepted image) ∧
      ∀ answer, outcome.result = .ok answer → outcome.state = .loaded image) ∧
    (∀ (path : String) (read : FileRead) (cartridge : Cartridge),
      let outcome := (Request.loadFile path read).action cartridge
      ((∃ answer, outcome.result = .ok answer) ↔
        cartridge.isOn = true ∧ ∃ image, read = .contents image ∧ Image.Accepted image) ∧
      ∀ answer, outcome.result = .ok answer →
        ∃ image, read = .contents image ∧ outcome.state = .loaded image) ∧
    ∀ requests : List Request,
      let record := Fields.afterRequests requests .fresh
      let cartridge := afterRequests requests .off
      (record.isLoaded = true → record.isOn = true ∧ Image.Accepted record.image) ∧
      (record.isLoaded = false →
        record.image = #[] ∧ (record.isOn = true → (Fields.size record).result = .ok 0)) ∧
      (∀ (request : Request) (fault : Fault), (request.onFields record).result = .error fault →
        (request.onFields record).state = record) ∧
      ∀ request : Request, request.onFields record = (request.action cartridge).within fields := by
  refine ⟨?_, ?_, ?_, ?_, ?_⟩
  · intro requests cartridge
    have hsound : cartridge.Sound := sound_off.afterRequests requests
    refine ⟨?_, ?_⟩
    · intro hloaded
      have haccepted := hsound hloaded
      exact ⟨isOn_of_isLoaded hloaded, haccepted.long, haccepted.magic, haccepted.layout,
        hsound.header hloaded⟩
    · intro hloaded
      have hbytes := bytes_of_not_loaded hloaded
      refine ⟨hbytes, ?_⟩
      intro hon
      rw [size_of_isOn hon, hbytes]
      rfl
  · intro request cartridge fault hresult
    exact (ends_action request cartridge).of_error hresult
  · intro image cartridge outcome
    refine ⟨granted_load_iff, ?_⟩
    intro answer hresult
    exact ((ends_action (.load image) cartridge).of_ok hresult).2.2
  · intro path read cartridge outcome
    refine ⟨granted_loadFile_iff, ?_⟩
    intro answer hresult
    obtain ⟨-, image, hread, -, hstate⟩ :=
      (ends_action (.loadFile path read) cartridge).of_ok hresult
    exact ⟨image, hread, hstate⟩
  · intro requests record cartridge
    have hrecord : record = cartridge.fields := fields_afterRequests requests .off
    have hsound : cartridge.Sound := sound_off.afterRequests requests
    rw [hrecord, isLoaded_fields, isOn_fields, image_fields]
    refine ⟨?_, ?_, ?_, ?_⟩
    · intro hloaded
      exact ⟨isOn_of_isLoaded hloaded, hsound hloaded⟩
    · intro hloaded
      have hbytes := bytes_of_not_loaded hloaded
      refine ⟨hbytes, ?_⟩
      intro hon
      rw [seen_size cartridge]
      refine (size_of_isOn hon).trans ?_
      rw [hbytes]
      rfl
    · intro request fault hresult
      rw [seen_request request cartridge] at hresult ⊢
      exact congrArg fields ((ends_action request cartridge).of_error hresult)
    · exact fun request => seen_request request cartridge

/-- A header and nothing after it. -/
def bareImage : Array UInt8 := #[0x4E, 0x45, 0x53, 0x1A, 0, 0, 0, 0, 0, 0, 0, 0, 0, 0, 0, 0]

/-- An image goes in, and two that are no good come after it. -/
def contestedRequests : List Request :=
  [.powerOn, .load bareImage, .load #[0x4E, 0x45], .loadFile "gone" .missing]

/-- The image that went in is still there, and its header is valid. A short image is refused, and a
file that is gone moves nothing, but the same image is taken from a file. -/
theorem accepted_after_contestedRequests :
    afterRequests contestedRequests .off = .loaded bareImage ∧
    (∃ header, (afterRequests contestedRequests .off).header = .ok header ∧
      header.hasSignature = true ∧ header.layout = .ines) ∧
    (¬ ∃ answer, ((Request.load #[0x4E, 0x45]).action (.loaded bareImage)).result = .ok answer) ∧
    ((Request.loadFile "gone" .missing).action (.loaded bareImage)).state = .loaded bareImage ∧
    (∃ answer, ((Request.loadFile "bare" (.contents bareImage)).action .empty).result
      = .ok answer) ∧
    (afterRequests [.powerOn] .off).size = .ok 0 ∧
    (Fields.afterRequests contestedRequests .fresh).isOn = true ∧
    Image.Accepted (Fields.afterRequests contestedRequests .fresh).image := by
  obtain ⟨hafter, hrefused, hload, hloadFile, hrecords⟩ := accepted_or_empty_afterRequests
  obtain ⟨-, hlong, hmagic, hlayout, hheader⟩ := (hafter contestedRequests).1 rfl
  refine ⟨rfl, hheader, ?_, ?_, ?_, ?_, ?_⟩
  · rw [(hload _ _).1]
    rintro ⟨-, haccepted⟩
    exact absurd haccepted.long (by decide)
  · exact hrefused (.loadFile "gone" .missing) (.loaded bareImage) (.fileNotFound "gone") rfl
  · exact (hloadFile _ _ _).1.mpr ⟨rfl, bareImage, rfl, hlong, hmagic, hlayout⟩
  · exact ((hafter [.powerOn]).2 rfl).2 rfl
  · exact (hrecords contestedRequests).1 rfl

end Cartridge

end NesMachine
