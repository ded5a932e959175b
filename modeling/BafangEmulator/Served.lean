/-
  Served.lean --- what a config profile serves: the payloads `build` would send.

  `served p` is the abstract content of the config profile `p`: a bank of three
  registers, one per block, whose values are payloads.  The two operations of the
  packet builder act on it as a bank's do:

      build   sends the register and leaves the bank alone (`build_run`,
              `Filled.served_eq`), although it may fill defaults into the profile
      parse   sets one register to the payload it accepts and leaves the others
              alone (`parse_run`, `served_committed`)

  A register can be without a value: `build` is then undefined (`Readable`).
-/
import BafangEmulator.PacketBuilder
import BafangEmulator.ProfileText

set_option autoImplicit false

namespace BafangEmulator

open Foundation

/-! ## Filling in defaults -/

/-- A key with the text stored for it by default: section, key, text. -/
abbrev Slot : Type := Bytes × Bytes × Bytes

/-- No key has two different defaults. -/
def Unambiguous (slots : List Slot) : Prop :=
  ∀ x ∈ slots, ∀ y ∈ slots, x.1 = y.1 → x.2.1 = y.2.1 → x.2.2 = y.2.2

instance (slots : List Slot) : Decidable (Unambiguous slots) :=
  inferInstanceAs (Decidable (∀ x ∈ slots, ∀ y ∈ slots, x.1 = y.1 → x.2.1 = y.2.1 → x.2.2 = y.2.2))

/-- `p'` is `p` with some missing keys filled in, each with a default of `slots`,
and with none when `p` exists on disk. -/
structure Filled (slots : List Slot) (p p' : Profile) : Prop where
  exists_eq : p'.exists_ = p.exists_
  filename_eq : p'.filename = p.filename
  get?_eq : ∀ sec key, p'.data.get? sec key = p.data.get? sec key ∨
    (p.exists_ = false ∧ p.data.get? sec key = none ∧
      ∃ text, (sec, key, text) ∈ slots ∧ p'.data.get? sec key = some text)

namespace Filled

variable {slots : List Slot} {p p' p'' : Profile}

theorem refl (slots : List Slot) (p : Profile) : Filled slots p p :=
  ⟨rfl, rfl, fun _ _ => Or.inl rfl⟩

theorem trans (h : Filled slots p p') (h' : Filled slots p' p'') : Filled slots p p'' := by
  refine ⟨h'.exists_eq.trans h.exists_eq, h'.filename_eq.trans h.filename_eq, fun sec key => ?_⟩
  rcases h'.get?_eq sec key with heq' | ⟨hexists, hnone, text, hmem, hsome⟩
  · rcases h.get?_eq sec key with heq | ⟨hexists, hnone, text, hmem, hsome⟩
    · exact Or.inl (heq'.trans heq)
    · exact Or.inr ⟨hexists, hnone, text, hmem, heq'.trans hsome⟩
  · rcases h.get?_eq sec key with heq | ⟨-, -, text', -, hsome'⟩
    · exact Or.inr ⟨h.exists_eq.symm.trans hexists, heq.symm.trans hnone, text, hmem, hsome⟩
    · rw [hsome'] at hnone
      simp at hnone

/-- One `find` fills in at most its own default. -/
theorem find {sec key text : Bytes} (h : (sec, key, text) ∈ slots) (p : Profile) :
    Filled slots p (p.find sec key text).2 := by
  refine ⟨p.find_exists sec key text, p.find_filename sec key text, fun sec' key' => ?_⟩
  rcases p.get?_find sec key text sec' key' with heq | ⟨hexists, hnone, rfl, rfl, hsome⟩
  · exact Or.inl heq
  · exact Or.inr ⟨hexists, hnone, text, h, hsome⟩

/-- Filling in defaults does not change what is found. -/
theorem findConst_eq (hslots : Unambiguous slots) (h : Filled slots p p') {sec key text : Bytes}
    (hmem : (sec, key, text) ∈ slots) :
    p'.findConst sec key text = p.findConst sec key text := by
  unfold Profile.findConst
  rcases h.get?_eq sec key with heq | ⟨-, hnone, text', hmem', hsome⟩
  · rw [heq]
  · have htext : text' = text := hslots _ hmem' _ hmem rfl rfl
    rw [hsome, hnone, htext]
    rfl

/-- Nothing is filled into a profile that exists on disk. -/
theorem eq_of_exists (h : Filled slots p p') (hexists : p.exists_ = true) : p' = p := by
  have hdata : p'.data = p.data := by
    refine Table.ext_get? fun sec key => ?_
    rcases h.get?_eq sec key with heq | ⟨hfalse, -⟩
    · exact heq
    · rw [hexists] at hfalse
      simp at hfalse
  obtain ⟨e, f, d⟩ := p
  obtain ⟨e', f', d'⟩ := p'
  obtain rfl : d' = d := hdata
  obtain rfl : e' = e := h.exists_eq
  obtain rfl : f' = f := h.filename_eq
  rfl

end Filled

/-! ## The registers of the config profile -/

/-- The number a key yields. -/
def slotValue (p : Profile) (sec : Bytes) (slot : Bytes × Int) : Int :=
  Profile.extractInt (p.findConst sec slot.1 (decimal slot.2))

/-- The bytes computed from the stored numbers of some fields. -/
def servedFields (p : Profile) (sec : Bytes) : List Field → Option Bytes
  | [] => some []
  | f :: fs =>
    match f.assemble (f.slots.map (slotValue p sec)) with
    | none => none
    | some v => (servedFields p sec fs).map (v :: ·)

/-- The payload `build` sends for a block, unless its behaviour is undefined. -/
def served (p : Profile) (b : Block) : Option Bytes := servedFields p b.sec b.fields

/-- The defaults of some fields. -/
def fieldSlots (sec : Bytes) (fs : List Field) : List Slot :=
  fs.flatMap fun f => f.slots.map fun slot => (sec, slot.1, decimal slot.2)

/-- The defaults of all three blocks. -/
def configSlots : List Slot :=
  [Block.basic, Block.pedal, Block.throttle].flatMap fun b => fieldSlots b.sec b.fields

theorem unambiguous_configSlots : Unambiguous configSlots := by decide +kernel

theorem fieldSlots_subset_configSlots (b : Block) :
    fieldSlots b.sec b.fields ⊆ configSlots := by
  intro x hx
  refine List.mem_flatMap.mpr ⟨b, ?_, hx⟩
  cases b <;> simp

/-- Fields that find the same numbers compute the same bytes. -/
theorem servedFields_congr {p p' : Profile} {sec : Bytes} : ∀ {fs : List Field},
    (∀ f ∈ fs, ∀ slot ∈ f.slots, slotValue p' sec slot = slotValue p sec slot) →
    servedFields p' sec fs = servedFields p sec fs := by
  intro fs
  induction fs with
  | nil => intro _; rfl
  | cons f fs ih =>
    intro h
    have hvalues : f.slots.map (slotValue p' sec) = f.slots.map (slotValue p sec) :=
      List.map_congr_left (h f List.mem_cons_self)
    rw [servedFields, servedFields, hvalues, ih fun g hg => h g (List.mem_cons_of_mem f hg)]

theorem mem_fieldSlots {sec : Bytes} {fs : List Field} {f : Field} {slot : Bytes × Int}
    (hf : f ∈ fs) (hslot : slot ∈ f.slots) : (sec, slot.1, decimal slot.2) ∈ fieldSlots sec fs :=
  List.mem_flatMap.mpr ⟨f, hf, List.mem_map.mpr ⟨slot, hslot, rfl⟩⟩

/-- Filling in defaults leaves every register alone. -/
theorem Filled.served_eq {p p' : Profile} (h : Filled configSlots p p') (b : Block) :
    served p' b = served p b := by
  refine servedFields_congr fun f hf slot hslot => ?_
  have hmem := fieldSlots_subset_configSlots b (mem_fieldSlots hf hslot)
  rw [slotValue, slotValue, h.findConst_eq unambiguous_configSlots hmem]

/-! ## build -/

namespace PacketBuilder

theorem findInt_run (sec key : Bytes) (default : Int) (p : Profile) :
    findInt sec key default p =
      .returned (slotValue p sec (key, default)) (p.find sec key (decimal default)).2 := by
  simp [findInt, Profile.findInt, slotValue]

theorem findText_run (sec key default : Bytes) (p : Profile) :
    findText sec key default p =
      .returned (p.findConst sec key default) (p.find sec key default).2 := by
  simp [findText]

variable {S : List Slot}

theorem findSlots_run (hS : Unambiguous S) {sec : Bytes} : ∀ {slots : List (Bytes × Int)}
    (p : Profile), (∀ slot ∈ slots, (sec, slot.1, decimal slot.2) ∈ S) →
    ∃ p', findSlots sec slots p = .returned (slots.map (slotValue p sec)) p' ∧ Filled S p p' := by
  intro slots
  induction slots with
  | nil => intro p _; exact ⟨p, rfl, Filled.refl S p⟩
  | cons slot slots ih =>
    intro p h
    obtain ⟨key, default⟩ := slot
    have hfirst : Filled S p (p.find sec key (decimal default)).2 :=
      Filled.find (h _ List.mem_cons_self) p
    obtain ⟨p', hrun, hrest⟩ := ih (p.find sec key (decimal default)).2
      fun slot hslot => h slot (List.mem_cons_of_mem _ hslot)
    -- The numbers found after the first key was filled in are those found before.
    have hvalues : slots.map (slotValue (p.find sec key (decimal default)).2 sec) =
        slots.map (slotValue p sec) := by
      refine List.map_congr_left fun slot hslot => ?_
      rw [slotValue, slotValue, hfirst.findConst_eq hS (h slot (List.mem_cons_of_mem _ hslot))]
    refine ⟨p', ?_, hfirst.trans hrest⟩
    rw [findSlots, Exec.bind_of_returned (findInt_run sec key default p),
      Exec.bind_of_returned hrun, hvalues]
    rfl

theorem buildFields_run (hS : Unambiguous S) {sec : Bytes} : ∀ {fs : List Field} (p : Profile),
    fieldSlots sec fs ⊆ S →
    (servedFields p sec fs = none ∧ buildFields sec fs p = .undefined) ∨
    ∃ payload p', servedFields p sec fs = some payload ∧
      buildFields sec fs p = .returned payload p' ∧ Filled S p p' := by
  intro fs
  induction fs with
  | nil => intro p _; exact Or.inr ⟨[], p, rfl, rfl, Filled.refl S p⟩
  | cons f fs ih =>
    intro p h
    have hslots : ∀ slot ∈ f.slots, (sec, slot.1, decimal slot.2) ∈ S := fun slot hslot =>
      h (mem_fieldSlots List.mem_cons_self hslot)
    have hsub : fieldSlots sec fs ⊆ S := by
      intro x hx
      refine h ?_
      rw [fieldSlots, List.flatMap_cons]
      exact List.mem_append_right _ hx
    obtain ⟨p₁, hfind, hfill⟩ := findSlots_run hS p hslots
    rw [servedFields, buildFields, Exec.bind_of_returned hfind]
    cases hv : f.assemble (f.slots.map (slotValue p sec)) with
    | none => exact Or.inl ⟨rfl, rfl⟩
    | some v =>
      have hrest : servedFields p₁ sec fs = servedFields p sec fs := by
        refine servedFields_congr fun g hg slot hslot => ?_
        rw [slotValue, slotValue, hfill.findConst_eq hS (hsub (mem_fieldSlots hg hslot))]
      rw [Exec.bind_of_returned (Exec.ofOption_some_run v p₁)]
      rcases ih p₁ hsub with ⟨hnone, hrun⟩ | ⟨payload, p', hsome, hrun, hfill'⟩
      · refine Or.inl ⟨?_, Exec.bind_of_undefined hrun⟩
        simp [← hrest, hnone]
      · refine Or.inr ⟨v :: payload, p', ?_, Exec.bind_of_returned hrun, hfill.trans hfill'⟩
        simp [← hrest, hsome]

/-- **`build`** returns the register of the block, if it has a value, and fills in
defaults at most. -/
theorem build_run (b : Block) (p : Profile) :
    (served p b = none ∧ build b p = .undefined) ∨
    ∃ payload p', served p b = some payload ∧ build b p = .returned payload p' ∧
      Filled configSlots p p' :=
  buildFields_run unambiguous_configSlots p (fieldSlots_subset_configSlots b)

/-- The value `build` returns is the register. -/
theorem value?_build (b : Block) (p : Profile) : (build b p).value? = served p b := by
  rcases build_run b p with ⟨hserved, hrun⟩ | ⟨payload, p', hserved, hrun, -⟩
  · rw [hrun, hserved]
    rfl
  · rw [hrun, hserved]
    rfl

end PacketBuilder

/-! ## Storing a payload -/

/-- What `parse` stores for one payload byte it accepts. -/
def fieldEntries (sec : Bytes) (f : Field) (v : UInt8) : List Slot :=
  (f.slots.zip ((f.accept v).getD [])).map fun e => (sec, e.1.1, decimal e.2)

/-- What `parse` stores for a payload it accepts. -/
def entriesOf (sec : Bytes) (fs : List Field) (payload : Bytes) : List Slot :=
  (fs.zip payload).flatMap fun e => fieldEntries sec e.1 e.2

/-- The status of the first field that rejects its byte. -/
def rejection (fs : List Field) (payload : Bytes) : Option UInt8 :=
  ((fs.zip payload).find? fun e => (e.1.accept e.2).isNone).map fun e => e.1.status

/-- A payload is accepted when no field rejects its byte. -/
def Accepted (b : Block) (payload : Bytes) : Prop := rejection b.fields payload = none

instance (b : Block) (payload : Bytes) : Decidable (Accepted b payload) :=
  inferInstanceAs (Decidable (_ = _))

theorem isSome_accept_of_rejection_none {fs : List Field} {payload : Bytes}
    (h : rejection fs payload = none) {e : Field × UInt8} (he : e ∈ fs.zip payload) :
    ∃ xs, e.1.accept e.2 = some xs := by
  unfold rejection at h
  rw [Option.map_eq_none_iff, List.find?_eq_none] at h
  cases hx : e.1.accept e.2 with
  | some xs => exact ⟨xs, rfl⟩
  | none => exact absurd (by simp [hx]) (h e he)

/-- A rejection names one of the fields. -/
theorem exists_field_of_rejection {fs : List Field} {payload : Bytes} {status : UInt8}
    (h : rejection fs payload = some status) : ∃ f ∈ fs, f.status = status := by
  obtain ⟨e, he, rfl⟩ := Option.map_eq_some_iff.mp h
  have hzip : e ∈ fs.zip payload := List.mem_of_find?_eq_some he
  exact ⟨e.1, (List.of_mem_zip hzip).1, rfl⟩

/-- The status of a rejection is below success. -/
theorem status_lt_success {b : Block} {payload : Bytes} {status : UInt8}
    (h : rejection b.fields payload = some status) : status < b.success := by
  have hstatus : ∀ b : Block, ∀ f ∈ b.fields, f.status < b.success := by
    intro b
    cases b <;> decide
  obtain ⟨f, hf, rfl⟩ := exists_field_of_rejection h
  exact hstatus b f hf

/-- No rejection is answered as a success is. -/
theorem status_ne_success {b : Block} {payload : Bytes} {status : UInt8}
    (h : rejection b.fields payload = some status) : status ≠ b.success :=
  UInt8.ne_of_lt (status_lt_success h)

/-- An accepted first byte leaves the verdict to the rest. -/
theorem rejection_cons {f : Field} {v : UInt8} {xs : List Int} (h : f.accept v = some xs)
    (fs : List Field) (payload : Bytes) :
    rejection (f :: fs) (v :: payload) = rejection fs payload := by
  simp [rejection, h]

namespace PacketBuilder

theorem addSlots_eq (sec : Bytes) (slots : List (Bytes × Int)) (xs : List Int)
    (temp : Profile) :
    addSlots sec slots xs temp =
      { temp with
        data := temp.data.setAll ((slots.zip xs).map fun e => (sec, e.1.1, decimal e.2)) } := by
  unfold addSlots
  induction slots.zip xs generalizing temp with
  | nil => rfl
  | cons e l ih =>
    rw [List.foldl_cons, ih, List.map_cons, Table.setAll_cons]
    rfl

/-- The copy `parse` works on ends up with all entries of the payload, or `parse`
stops at the first rejected byte. -/
theorem storeFields_eq (sec : Bytes) : ∀ (fs : List Field) (payload : Bytes) (temp : Profile),
    storeFields sec fs payload temp =
      match rejection fs payload with
      | some status => .error status
      | none => .ok { temp with data := temp.data.setAll (entriesOf sec fs payload) } := by
  intro fs
  induction fs with
  | nil => intro payload temp; rfl
  | cons f fs ih =>
    intro payload temp
    cases payload with
    | nil => rfl
    | cons v payload =>
      cases hv : f.accept v with
      | none => simp [storeFields, rejection, hv]
      | some xs =>
        have hentries : entriesOf sec (f :: fs) (v :: payload) =
            ((f.slots.zip xs).map fun e => (sec, e.1.1, decimal e.2)) ++
              entriesOf sec fs payload := by
          simp [entriesOf, fieldEntries, hv]
        simp only [storeFields, hv]
        rw [ih, addSlots_eq, rejection_cons hv, hentries, Table.setAll_append]

end PacketBuilder

/-- The profile after an accepted write, before it is saved. -/
def committed (p : Profile) (b : Block) (payload : Bytes) : Profile :=
  { p with data := p.data.setAll (entriesOf b.sec b.fields payload) }

/-- **`parse`** answers the first rejected field and changes nothing, or commits the
payload and then saves it. -/
theorem PacketBuilder.parse_run (env : Environment) (b : Block)
    (request : RequestPacket b.payloadSize) (s : Store) :
    PacketBuilder.parse env b request s =
      match rejection b.fields request.payload.toList with
      | some status => .returned status s
      | none =>
        if env.opens s.profile.filename then
          .returned b.success (Profile.saved s.profile.filename
            { s with profile := committed s.profile b request.payload.toList })
        else
          .threw Profile.saveFailure
            { s with profile := committed s.profile b request.payload.toList } := by
  unfold PacketBuilder.parse
  rw [Exec.bind_of_returned (Exec.get_run s), storeFields_eq]
  cases hr : rejection b.fields request.payload.toList with
  | some status => rfl
  | none =>
    simp only
    rw [Exec.bind_of_returned (Exec.modify_run _ s), Exec.bind_run, Profile.save_run]
    cases env.opens s.profile.filename <;> simp [committed]

/-- The status a write is answered with, when its save opens the file. -/
def statusOf (b : Block) (payload : Bytes) : UInt8 :=
  (rejection b.fields payload).getD b.success

/-- The store after a write whose save opens the file. -/
def afterWrite (s : Store) (b : Block) (payload : Bytes) : Store :=
  if Accepted b payload then
    Profile.saved s.profile.filename { s with profile := committed s.profile b payload }
  else s

theorem statusOf_of_accepted {b : Block} {payload : Bytes} (h : Accepted b payload) :
    statusOf b payload = b.success := by
  rw [statusOf, h]
  rfl

/-- Success is the answer to accepted writes only. -/
theorem statusOf_eq_success_iff (b : Block) (payload : Bytes) :
    statusOf b payload = b.success ↔ Accepted b payload := by
  refine ⟨fun h => ?_, statusOf_of_accepted⟩
  rw [statusOf] at h
  cases hreject : rejection b.fields payload with
  | some status =>
    rw [hreject] at h
    exact absurd h (status_ne_success hreject)
  | none => exact hreject

theorem afterWrite_of_accepted {b : Block} {payload : Bytes} (h : Accepted b payload) (s : Store) :
    afterWrite s b payload =
      Profile.saved s.profile.filename { s with profile := committed s.profile b payload } :=
  if_pos h

theorem afterWrite_of_not_accepted {b : Block} {payload : Bytes} (h : ¬ Accepted b payload)
    (s : Store) : afterWrite s b payload = s := if_neg h

/-- A write whose save opens the file. -/
theorem PacketBuilder.parse_run_of_opens {env : Environment} {b : Block}
    (request : RequestPacket b.payloadSize) {s : Store}
    (hopens : env.opens s.profile.filename = true) :
    PacketBuilder.parse env b request s =
      .returned (statusOf b request.payload.toList) (afterWrite s b request.payload.toList) := by
  rw [PacketBuilder.parse_run]
  cases hreject : rejection b.fields request.payload.toList with
  | some status =>
    have hnot : ¬ Accepted b request.payload.toList := by
      rw [Accepted, hreject]
      simp
    rw [statusOf, hreject, afterWrite_of_not_accepted hnot]
    rfl
  | none => rw [statusOf_of_accepted hreject, afterWrite_of_accepted hreject, if_pos hopens]

/-! ## The registers after a write -/

theorem sec_of_mem_entriesOf {sec : Bytes} {fs : List Field} {payload : Bytes} {x : Slot}
    (h : x ∈ entriesOf sec fs payload) : x.1 = sec := by
  obtain ⟨e, -, hx⟩ := List.mem_flatMap.mp h
  obtain ⟨y, -, rfl⟩ := List.mem_map.mp hx
  rfl

/-- An accepted payload is stored under exactly the keys of the block. -/
theorem keys_entriesOf (sec : Bytes) : ∀ {fs : List Field} {payload : Bytes},
    fs.length = payload.length → rejection fs payload = none →
    (entriesOf sec fs payload).map (fun x => x.2.1) =
      fs.flatMap fun f => f.slots.map Prod.fst := by
  intro fs
  induction fs with
  | nil => intro payload _ _; rfl
  | cons f fs ih =>
    intro payload hlen hr
    cases payload with
    | nil => simp at hlen
    | cons v payload =>
      obtain ⟨xs, hxs⟩ := isSome_accept_of_rejection_none hr (e := (f, v)) (by simp)
      have hr' : rejection fs payload = none := by rw [← rejection_cons hxs, hr]
      have hkeys : (fieldEntries sec f v).map (fun x => x.2.1) = f.slots.map Prod.fst := by
        have hzip : (f.slots.zip xs).map Prod.fst = f.slots :=
          List.map_fst_zip (Nat.le_of_eq (f.length_accept v xs hxs).symm)
        rw [fieldEntries, hxs, List.map_map]
        conv_rhs => rw [← hzip, List.map_map]
        rfl
      rw [List.flatMap_cons, ← hkeys, ← ih (by simpa using hlen) hr', ← List.map_append]
      rfl

theorem nodup_keys (b : Block) : (b.fields.flatMap fun f => f.slots.map Prod.fst).Nodup := by
  cases b <;> decide +kernel

/-- The entries of an accepted payload are found under their keys. -/
theorem get?_committed {p : Profile} {b : Block} {payload : Bytes}
    (hlen : payload.length = b.payloadSize) (hr : Accepted b payload) {x : Slot}
    (hx : x ∈ entriesOf b.sec b.fields payload) :
    (committed p b payload).data.get? x.1 x.2.1 = some x.2.2 := by
  refine Table.get?_setAll_of_mem hx fun v' hv' => ?_
  have hnodup : ((entriesOf b.sec b.fields payload).map fun x => x.2.1).Nodup := by
    rw [keys_entriesOf b.sec (by rw [hlen, b.length_fields]) hr]
    exact nodup_keys b
  have heq := List.inj_on_of_nodup_map hnodup hv' hx rfl
  exact congrArg (fun y => y.2.2) heq

/-- The other sections keep their entries. -/
theorem get?_committed_of_ne {p : Profile} {b : Block} {payload sec : Bytes} (h : sec ≠ b.sec)
    (key : Bytes) : (committed p b payload).data.get? sec key = p.data.get? sec key :=
  Table.get?_setAll_of_not_mem fun _ hv => h (sec_of_mem_entriesOf hv)

/-- Fields whose stored numbers are those of a payload compute the payload. -/
theorem servedFields_eq_some {p : Profile} {sec : Bytes} : ∀ {fs : List Field} {payload : Bytes},
    fs.length = payload.length →
    (∀ e ∈ fs.zip payload, e.1.assemble (e.1.slots.map (slotValue p sec)) = some e.2) →
    servedFields p sec fs = some payload := by
  intro fs
  induction fs with
  | nil =>
    intro payload hlen _
    rw [List.length_eq_zero_iff.mp hlen.symm]
    rfl
  | cons f fs ih =>
    intro payload hlen h
    cases payload with
    | nil => simp at hlen
    | cons v payload =>
      have hv := h (f, v) (by simp)
      have hrest := ih (by simpa using hlen) fun e he => h e (by simp [he])
      simp only at hv
      simp [servedFields, hv, hrest]

/-- An accepted write sets the register of its block to the payload. -/
theorem served_committed_self {b : Block} {payload : Bytes}
    (hlen : payload.length = b.payloadSize) (hr : Accepted b payload) (p : Profile) :
    served (committed p b payload) b = some payload := by
  refine servedFields_eq_some (by rw [hlen, b.length_fields]) ?_
  rintro ⟨f, v⟩ he
  obtain ⟨xs, hxs⟩ := isSome_accept_of_rejection_none hr he
  have hlength := f.length_accept v xs hxs
  -- The numbers found are the numbers stored.
  have hvalues : f.slots.map (slotValue (committed p b payload) b.sec) = xs := by
    refine List.ext_getElem (by simp [hlength]) fun i hi hi' => ?_
    have hslot : i < f.slots.length := by simpa using hi
    have hmem : (b.sec, f.slots[i].1, decimal xs[i]) ∈ entriesOf b.sec b.fields payload := by
      refine List.mem_flatMap.mpr ⟨(f, v), he, List.mem_map.mpr ⟨(f.slots[i], xs[i]), ?_, rfl⟩⟩
      have hxs' : (f.accept v).getD [] = xs := by rw [hxs, Option.getD_some]
      rw [hxs']
      exact List.mem_iff_getElem.mpr ⟨i, by simp [hslot, hi'], by simp⟩
    have hfits := f.fitsInt_accept v xs hxs xs[i] (List.getElem_mem hi')
    rw [List.getElem_map, slotValue, Profile.findConst, get?_committed hlen hr hmem]
    exact Profile.extractInt_decimal hfits.1 hfits.2
  rw [hvalues]
  exact f.assemble_accept v xs hxs

/-- A write leaves the registers of the other blocks alone. -/
theorem served_committed_of_ne {b b' : Block} (h : b' ≠ b) (payload : Bytes) (p : Profile) :
    served (committed p b payload) b' = served p b' := by
  refine servedFields_congr fun f _ slot _ => ?_
  have hsec : b'.sec ≠ b.sec := fun heq => h (Block.sec_injective heq)
  rw [slotValue, slotValue, Profile.findConst, Profile.findConst, get?_committed_of_ne hsec]

/-- **An accepted write** acts on the registers as a write to a bank. -/
theorem served_committed {b : Block} {payload : Bytes} (hlen : payload.length = b.payloadSize)
    (hr : Accepted b payload) (p : Profile) :
    served (committed p b payload) = Function.update (served p) b (some payload) := by
  funext b'
  by_cases h : b' = b
  · subst h
    rw [served_committed_self hlen hr, Function.update_self]
  · rw [served_committed_of_ne h, Function.update_of_ne h]

/-- A save leaves the registers alone. -/
theorem served_saved (path : Bytes) (s : Store) :
    served (Profile.saved path s).profile = served s.profile := by
  funext b
  exact servedFields_congr fun _ _ _ _ => rfl

/-! ## Registers without a value -/

/-- The stored numbers `build` computes the block from have a defined result: the
wheel index is inside the table and the speed meter does not overflow. -/
def Readable (p : Profile) : Block → Prop
  | .basic =>
    let wd := slotValue p Block.basic.sec (bytes "WD", 10)
    let smm := slotValue p Block.basic.sec (bytes "SMM", 0)
    let sms := slotValue p Block.basic.sec (bytes "SMS", 1)
    (0 ≤ wd ∧ wd < 16) ∧ FitsInt (smm * 64) ∧ FitsInt (smm * 64 + sms)
  | .pedal => True
  | .throttle => True

/-- A register holds a payload of the block's size. -/
theorem length_served {p : Profile} {b : Block} {payload : Bytes}
    (h : served p b = some payload) : payload.length = b.payloadSize := by
  have hfields : ∀ {fs : List Field} {vs : Bytes},
      servedFields p b.sec fs = some vs → vs.length = fs.length := by
    intro fs
    induction fs with
    | nil =>
      intro vs hvs
      rw [← Option.some.inj hvs]
      rfl
    | cons f fs ih =>
      intro vs hvs
      rw [servedFields] at hvs
      split at hvs
      · simp at hvs
      · obtain ⟨ws, hws, rfl⟩ := Option.map_eq_some_iff.mp hvs
        rw [List.length_cons, List.length_cons, ih hws]
  rw [hfields h, b.length_fields]

theorem isSome_servedFields {p : Profile} {sec : Bytes} {fs : List Field} :
    (servedFields p sec fs).isSome = true ↔
      ∀ f ∈ fs, (f.assemble (f.slots.map (slotValue p sec))).isSome = true := by
  induction fs with
  | nil => simp [servedFields]
  | cons f fs ih =>
    rw [List.forall_mem_cons, ← ih, servedFields]
    cases f.assemble (f.slots.map (slotValue p sec)) <;> simp

theorem isSome_wheelAt {i : Int} : (wheelAt i).isSome = true ↔ 0 ≤ i ∧ i < 16 := by
  unfold wheelAt
  split
  · rename_i h
    have hlen : buildWheels.length = 16 := by decide
    have hsome : buildWheels[i.toNat]?.isSome = true ↔ i.toNat < 16 := by
      rw [← hlen, Option.isSome_iff_ne_none, Ne, List.getElem?_eq_none_iff, Nat.not_le]
    rw [Option.isSome_map, hsome]
    omega
  · rename_i h
    simp [h]

theorem isSome_speedMeterOf {smm sms : Int} :
    (speedMeterOf smm sms).isSome = true ↔ FitsInt (smm * 64) ∧ FitsInt (smm * 64 + sms) := by
  unfold speedMeterOf
  split <;> simp_all

/-- A register has a value exactly when its stored numbers are readable. -/
theorem isSome_served_iff (p : Profile) (b : Block) :
    (served p b).isSome = true ↔ Readable p b := by
  rw [served, isSome_servedFields]
  cases b with
  | basic =>
    simp only [Block.fields, basicFields, List.forall_mem_cons, Field.plain, List.map_cons,
      List.map_nil, Option.isSome_some, true_and, wheelSizeField, speedMeterField,
      isSome_wheelAt, isSome_speedMeterOf, List.not_mem_nil, false_implies, implies_true,
      and_true, Readable]
  | pedal => simp [Block.fields, pedalFields, Field.plain, Readable]
  | throttle => simp [Block.fields, throttleFields, Field.plain, Readable]

instance (p : Profile) (b : Block) : Decidable (Readable p b) :=
  decidable_of_iff _ (isSome_served_iff p b)

theorem served_eq_none_iff (p : Profile) (b : Block) : served p b = none ↔ ¬ Readable p b := by
  rw [← isSome_served_iff, Option.not_isSome_iff_eq_none]

end BafangEmulator
