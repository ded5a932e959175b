/-
  Stepwise.lean --- profile.cpp, packet_builder.cpp and serial_handler.cpp once
  more, one statement after the other.

  The definitions of `Profile.lean`, `PacketBuilder.lean` and `SerialHandler.lean`
  say what the code comes to.  Here each statement that touches a profile, a buffer,
  a file or the port is a step of its own, between which other threads may run, and so
  is each dump, which may have no defined end.

  A save is one step for each line, because one statement writes it and ends with the
  `std::endl` that flushes it.  Within that statement a line longer than the buffer of
  the stream reaches the file in pieces; that is below the steps made here.

  Each definition has the name it has there, and `_run` says that its steps come to
  what is defined there when nothing runs in between.
-/
import BafangEmulator.Foundation.Code
import BafangEmulator.ProfileText
import BafangEmulator.SerialHandler

set_option autoImplicit false

namespace BafangEmulator.Stepwise

open Foundation Code

/-! ## profile::save_as and profile::save -/

/-- `std::ofstream f(path)`, which empties the file it opens. -/
def openForWriting (env : Environment) (path : Bytes) : Exec Exception Store Unit := do
  if env.opens path then
    Exec.modify fun s => { s with files := Function.update s.files path (some []) }
  else Exec.throw Profile.saveFailure

/-- The profile is on disk under the path. -/
def markSaved (path : Bytes) : Exec Exception Store Unit :=
  Exec.modify fun s => { s with profile := { s.profile with exists_ := true, filename := path } }

/-- A line goes to the end of the open file: one statement with its `std::endl`. -/
def appendLine (path line : Bytes) : Exec Exception Store Unit :=
  Exec.modify fun s => { s with
    files := Function.update s.files path
      (some ((s.files path).getD [] ++ (line ++ [Profile.newline]))) }

/-- `profile::save_as`. -/
def saveAs (env : Environment) (path : Bytes) : Code Exception Store Unit := do
  lift (openForWriting env path)
  lift (markSaved path)
  let s ← lift Exec.get
  forEach (fun line => lift (appendLine path line))
    (s.profile.data.entries.flatMap Profile.sectionLines)

/-- `profile::save`. -/
def save (env : Environment) : Code Exception Store Unit := do
  let s ← lift Exec.get
  saveAs env s.profile.filename

/-- The loop over the lines appends them all. -/
theorem appendLines_run (path : Bytes) :
    ∀ (lines : List Bytes) (s : Store) {text : Bytes}, s.files path = some text →
      (forEach (fun line => lift (appendLine path line)) lines).run s =
        .returned () { s with
          files := Function.update s.files path
            (some (text ++ lines.flatMap (· ++ [Profile.newline]))) } := by
  intro lines
  induction lines with
  | nil =>
    intro s text htext
    rw [forEach, run_pure, Exec.pure_run, List.flatMap_nil, List.append_nil, ← htext,
      Function.update_eq_self]
  | cons line lines ih =>
    intro s text htext
    have hline : (lift (appendLine path line)).run s = .returned () { s with
        files := Function.update s.files path (some (text ++ (line ++ [Profile.newline]))) } := by
      rw [run_lift, appendLine, Exec.modify_run, htext, Option.getD_some]
    rw [forEach, run_bind, Exec.bind_of_returned hline, ih _ (Function.update_self path _ _)]
    simp only [Function.update_idem, List.flatMap_cons, List.append_assoc]

theorem saveAs_run (env : Environment) (path : Bytes) :
    (saveAs env path).run = Profile.saveAs env path := by
  funext s
  rw [Profile.saveAs_run, saveAs, run_bind, run_lift]
  cases hopens : env.opens path with
  | false =>
    have hthrow : openForWriting env path s = .threw Profile.saveFailure s := by
      simp [openForWriting, hopens]
    exact Exec.bind_of_threw hthrow
  | true =>
    have hopen : openForWriting env path s = .returned () { s with
        files := Function.update s.files path (some []) } := by
      simp [openForWriting, hopens]
    rw [Exec.bind_of_returned hopen, run_bind, run_lift, markSaved,
      Exec.bind_of_returned (Exec.modify_run _ _), run_bind, run_lift,
      Exec.bind_of_returned (Exec.get_run _),
      appendLines_run path _ _ (Function.update_self path _ _), if_pos rfl, Profile.saved,
      Profile.render_eq_lines]
    simp only [Function.update_idem, List.nil_append]

theorem save_run (env : Environment) : (save env).run = Profile.save env := by
  funext s
  rw [save, Profile.save, run_bind, run_lift, Exec.bind_of_returned (Exec.get_run s),
    Exec.bind_of_returned (Exec.get_run s), saveAs_run]

/-! ## packet_builder -/

/-- The numbers a payload byte is made from. -/
def findSlots (sec : Bytes) : List (Bytes × Int) → Code Exception Profile (List Int)
  | [] => pure []
  | (key, default) :: slots => do
    let x ← lift (PacketBuilder.findInt sec key default)
    let xs ← findSlots sec slots
    pure (x :: xs)

/-- The payload bytes, one statement each. -/
def buildFields (sec : Bytes) : List Field → Code Exception Profile Bytes
  | [] => pure []
  | f :: fs => do
    let xs ← findSlots sec f.slots
    let v ← lift (Exec.ofOption (f.assemble xs))
    let vs ← buildFields sec fs
    pure (v :: vs)

/-- `packet_builder::build` for a block of the config profile. -/
def build (b : Block) : Code Exception Profile Bytes := buildFields b.sec b.fields

/-- Run code on the profile of a store. -/
def onProfile {α : Type} (c : Code Exception Profile α) : Code Exception Store α :=
  zoom Store.profile (fun p s => { s with profile := p }) c

/-- The statements of `build` for the general block, up to the save. -/
def buildGeneralPayload : Code Exception Profile Bytes := do
  let manufacturer ← lift (PacketBuilder.findText PacketBuilder.generalSec
    (bytes "MANUFACTURER") (bytes "HZXT"))
  let manufacturer ← lift (Exec.ofOption (PacketBuilder.copyChars manufacturer 4))
  let model ← lift (PacketBuilder.findText PacketBuilder.generalSec (bytes "MODEL")
    (bytes "BBS3"))
  let model ← lift (Exec.ofOption (PacketBuilder.copyChars model 4))
  let hardwareVersion ← lift (PacketBuilder.findInt PacketBuilder.generalSec
    (bytes "HARDWARD") (PacketBuilder.multichar "31"))
  let firmwareVersion ← lift (PacketBuilder.findInt PacketBuilder.generalSec
    (bytes "FIRMWARD") (PacketBuilder.multichar "1100"))
  let nominalVoltage ← lift (PacketBuilder.findInt PacketBuilder.generalSec (bytes "VOLTS") 4)
  let limitControl ← lift (PacketBuilder.findInt PacketBuilder.generalSec (bytes "LIMIT") 30)
  pure (PacketBuilder.generalPayload manufacturer model hardwareVersion firmwareVersion
    nominalVoltage limitControl)

/-- `packet_builder::build` for the general block. -/
def buildGeneral (env : Environment) : Code Exception Store Bytes := do
  let payload ← onProfile buildGeneralPayload
  let s ← lift Exec.get
  if !s.profile.exists_ then save env
  pure payload

/-- `packet_builder::parse`: the copy of the profile is the thread's own, so the checks
and updates on it are no steps. -/
def parse (env : Environment) (b : Block) (request : RequestPacket b.payloadSize) :
    Code Exception Store UInt8 := do
  let s ← lift Exec.get
  match PacketBuilder.storeFields b.sec b.fields request.payload.toList s.profile with
  | .error status => pure status
  | .ok temp =>
    lift (Exec.modify fun s => { s with profile := temp })
    save env
    pure b.success

theorem findSlots_run (sec : Bytes) (slots : List (Bytes × Int)) :
    (findSlots sec slots).run = PacketBuilder.findSlots sec slots := by
  induction slots with
  | nil => rfl
  | cons slot slots ih =>
    obtain ⟨key, default⟩ := slot
    simp only [findSlots, PacketBuilder.findSlots, run_bind, run_lift, run_pure, ih]

theorem buildFields_run (sec : Bytes) (fields : List Field) :
    (buildFields sec fields).run = PacketBuilder.buildFields sec fields := by
  induction fields with
  | nil => rfl
  | cons f fs ih =>
    simp only [buildFields, PacketBuilder.buildFields, run_bind, run_lift, run_pure,
      findSlots_run, ih]

theorem lens_profile : Lens Store.profile (fun p s => { s with profile := p }) where
  view_put _ _ := rfl
  put_view _ := rfl
  put_put _ _ _ := rfl

theorem onProfile_run {α : Type} (c : Code Exception Profile α) :
    (onProfile c).run = PacketBuilder.onProfile c.run :=
  run_zoom lens_profile c

theorem buildGeneralPayload_run : buildGeneralPayload.run = PacketBuilder.buildGeneralPayload := by
  simp only [buildGeneralPayload, PacketBuilder.buildGeneralPayload, run_bind, run_lift, run_pure]

theorem buildGeneral_run (env : Environment) :
    (buildGeneral env).run = PacketBuilder.buildGeneral env := by
  simp only [buildGeneral, PacketBuilder.buildGeneral, run_bind, run_lift, onProfile_run,
    buildGeneralPayload_run]
  refine congrArg _ (funext fun payload => congrArg _ (funext fun s => ?_))
  cases s.profile.exists_ with
  | true => rfl
  | false => exact (run_bind _ _).trans (congrArg (· >>= _) (save_run env))

theorem parse_run (env : Environment) (b : Block) (request : RequestPacket b.payloadSize) :
    (parse env b request).run = PacketBuilder.parse env b request := by
  rw [parse, PacketBuilder.parse, run_bind, run_lift]
  refine congrArg _ (funext fun s => ?_)
  cases PacketBuilder.storeFields b.sec b.fields request.payload.toList s.profile with
  | error status => rfl
  | ok temp => simp only [run_bind, run_lift, save_run, run_pure]

/-! ## serial_handler::on_data_available -/

/-- Run code on the general profile. -/
def onGeneral {α : Type} (c : Code Exception Store α) : Code Exception Session α :=
  zoom Session.generalStore Session.setGeneralStore c

/-- Run code on the config profile. -/
def onConfig {α : Type} (c : Code Exception Store α) : Code Exception Session α :=
  zoom Session.configStore Session.setConfigStore c

/-- The arm for a read of the general block. -/
def readGeneral (env : Environment) : Code Exception Session Unit := do
  let data ← lift SerialHandler.peek
  let request ← lift (Exec.ofExcept
    (RequestPacket.deserialize SerialHandler.generalRequestSize data))
  lift SerialHandler.flushAll
  lift (SerialHandler.traceBinary request.serialize)
  let payload ← onGeneral (buildGeneral env)
  lift (SerialHandler.write env (responsePacket .general payload))
  lift (SerialHandler.traceBinary (responsePacket .general payload))

/-- The arms for a read of a block of the config profile. -/
def readBlock (env : Environment) (b : Block) : Code Exception Session Unit := do
  let data ← lift SerialHandler.peek
  lift (SerialHandler.traceBinary data)
  lift SerialHandler.flushAll
  let payload ← onConfig (onProfile (build b))
  lift (SerialHandler.write env (responsePacket b.type payload))
  lift (SerialHandler.traceBinary (responsePacket b.type payload))

/-- The arms for a write of a block of the config profile. -/
def writeBlock (env : Environment) (b : Block) : Code Exception Session Unit := do
  let data ← lift SerialHandler.peek
  let request ← lift (Exec.ofExcept (RequestPacket.deserialize b.payloadSize data))
  lift SerialHandler.flushAll
  lift (SerialHandler.traceBinary request.serialize)
  let result ← onConfig (parse env b request)
  lift (SerialHandler.write env (responseStatusPacket b.type result))
  lift (SerialHandler.traceBinary (responseStatusPacket b.type result))

/-- The switch on command and type. -/
def dispatch (env : Environment) (command type : UInt8) : Code Exception Session Unit :=
  match PacketCommands.ofByte? command with
  | some .read =>
    match PacketTypes.ofByte? type with
    | some .general => readGeneral env
    | some .basic => readBlock env .basic
    | some .pedal => readBlock env .pedal
    | some .throttle => readBlock env .throttle
    | none => lift SerialHandler.flushAll
  | some .write =>
    match PacketTypes.ofByte? type with
    | some .basic => writeBlock env .basic
    | some .pedal => writeBlock env .pedal
    | some .throttle => writeBlock env .throttle
    | some .general => lift SerialHandler.flushAll
    | none => lift SerialHandler.flushAll
  | none => lift SerialHandler.flushAll

/-- `serial_handler::on_data_available`. -/
def onDataAvailable (env : Environment) : Code Exception Session Unit := do
  let data ← lift SerialHandler.peek
  lift (SerialHandler.traceBinary data)
  match data with
  | command :: type :: _ => (dispatch env command type).catchAll
  | _ => pure ()

theorem lens_general : Lens Session.generalStore Session.setGeneralStore where
  view_put _ _ := rfl
  put_view _ := rfl
  put_put _ _ _ := rfl

theorem lens_config : Lens Session.configStore Session.setConfigStore where
  view_put _ _ := rfl
  put_view _ := rfl
  put_put _ _ _ := rfl

theorem onGeneral_run {α : Type} (c : Code Exception Store α) :
    (onGeneral c).run = SerialHandler.onGeneral c.run :=
  run_zoom lens_general c

theorem onConfig_run {α : Type} (c : Code Exception Store α) :
    (onConfig c).run = SerialHandler.onConfig c.run :=
  run_zoom lens_config c

theorem readGeneral_run (env : Environment) :
    (readGeneral env).run = SerialHandler.readGeneral env := by
  simp only [readGeneral, SerialHandler.readGeneral, run_bind, run_lift, onGeneral_run,
    buildGeneral_run]

theorem readBlock_run (env : Environment) (b : Block) :
    (readBlock env b).run = SerialHandler.readBlock env b := by
  simp only [readBlock, SerialHandler.readBlock, run_bind, run_lift, onConfig_run, onProfile_run,
    build, PacketBuilder.build, buildFields_run]

theorem writeBlock_run (env : Environment) (b : Block) :
    (writeBlock env b).run = SerialHandler.writeBlock env b := by
  simp only [writeBlock, SerialHandler.writeBlock, run_bind, run_lift, onConfig_run, parse_run]

theorem dispatch_run (env : Environment) (command type : UInt8) :
    (dispatch env command type).run = SerialHandler.dispatch env command type := by
  unfold dispatch SerialHandler.dispatch
  cases PacketCommands.ofByte? command with
  | none => exact run_lift _
  | some c =>
    cases c with
    | read =>
      cases PacketTypes.ofByte? type with
      | none => exact run_lift _
      | some t =>
        cases t with
        | general => exact readGeneral_run env
        | basic => exact readBlock_run env .basic
        | pedal => exact readBlock_run env .pedal
        | throttle => exact readBlock_run env .throttle
    | write =>
      cases PacketTypes.ofByte? type with
      | none => exact run_lift _
      | some t =>
        cases t with
        | general => exact run_lift _
        | basic => exact writeBlock_run env .basic
        | pedal => exact writeBlock_run env .pedal
        | throttle => exact writeBlock_run env .throttle

/-- **The steps of the handler come to the handler.** -/
theorem onDataAvailable_run (env : Environment) :
    (onDataAvailable env).run = SerialHandler.onDataAvailable env := by
  rw [onDataAvailable, SerialHandler.onDataAvailable, run_bind, run_lift]
  refine congrArg _ (funext fun data => ?_)
  rw [run_bind, run_lift]
  refine congrArg _ (funext fun _ => ?_)
  cases data with
  | nil => rfl
  | cons command rest =>
    cases rest with
    | nil => rfl
    | cons type rest => exact (run_catchAll _).trans (congrArg _ (dispatch_run env command type))

end BafangEmulator.Stepwise
