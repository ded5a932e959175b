/-
  SerialHandler.lean --- serial.cpp and serial_handler.cpp: one port, and what it
  does with the bytes it receives.

  `onDataAvailable` runs with the mutex held, so it is atomic with respect to the
  handlers of the other ports.  Its arms are written as the source has them, and
  whatever they throw is swallowed by the `catch (...)` around the dispatch, with
  the changes made before the throw left in place.

  The trace goes to the log and the console, which are no part of the model.  But the
  dumps of what is received and sent are made here (`traceBinary`), as they are undefined
  when the bytes have a conversion among them (`Trace.lean`).

  `judge` says what the receive buffer amounts to, and `onDataAvailable_run` that
  the handler does exactly what the verdict calls for.
-/
import BafangEmulator.GeneralBlock
import BafangEmulator.Trace

set_option autoImplicit false

namespace BafangEmulator

open Foundation

/-! ## serial::impl -/

/-- What the handler of one port reaches during one event: the port's receive
buffer, the packets written to the port in this event, the two shared profiles
and the files. -/
structure Session where
  buffer : Bytes
  written : List Bytes
  general : Profile
  config : Profile
  files : Files

namespace Session

/-- The general profile and the files. -/
def generalStore (s : Session) : Store where
  profile := s.general
  files := s.files

/-- The config profile and the files. -/
def configStore (s : Session) : Store where
  profile := s.config
  files := s.files

/-- Put the general profile and the files back. -/
def setGeneralStore (t : Store) (s : Session) : Session :=
  { s with
    general := t.profile
    files := t.files }

/-- Put the config profile and the files back. -/
def setConfigStore (t : Store) (s : Session) : Session :=
  { s with
    config := t.profile
    files := t.files }

end Session

namespace SerialHandler

/-- `serial::peek`. -/
def peek : Exec Exception Session Bytes := fun s => .returned s.buffer s

/-- `serial::flush_all`. -/
def flushAll : Exec Exception Session Unit := Exec.modify fun s => { s with buffer := [] }

/-- Thrown by `serial::write`. -/
def writeFailure : Exception := .systemError (bytes "comms write failure")

/-- `serial::write`. -/
def write (env : Environment) (data : Bytes) : Exec Exception Session Unit := do
  if env.writes then Exec.modify fun s => { s with written := s.written ++ [data] }
  else Exec.throw writeFailure

/-- Run a statement on the general profile. -/
def onGeneral {α : Type} (m : Exec Exception Store α) : Exec Exception Session α :=
  Exec.zoom Session.generalStore Session.setGeneralStore m

/-- Run a statement on the config profile. -/
def onConfig {α : Type} (m : Exec Exception Store α) : Exec Exception Session α :=
  Exec.zoom Session.configStore Session.setConfigStore m

/-! ## serial_handler::on_data_available -/

/-- `TRACE_BINARY`.  What it prints is no part of a session, so its header is left out: it
has no say in whether the dump is defined. -/
def traceBinary (buffer : Bytes) : Exec Exception Session Unit :=
  Exec.ofOption ((Trace.dump [] buffer).map fun _ => ())

/-- The size of the payload of a read of the general block. -/
def generalRequestSize : Nat := 1

/-- The arm for a read of the general block. -/
def readGeneral (env : Environment) : Exec Exception Session Unit := do
  let data ← peek
  let request ← Exec.ofExcept (RequestPacket.deserialize generalRequestSize data)
  flushAll
  traceBinary request.serialize
  let payload ← onGeneral (PacketBuilder.buildGeneral env)
  write env (responsePacket .general payload)
  traceBinary (responsePacket .general payload)

/-- The arms for a read of a block of the config profile. -/
def readBlock (env : Environment) (b : Block) : Exec Exception Session Unit := do
  let data ← peek
  traceBinary data
  flushAll
  let payload ← onConfig (PacketBuilder.onProfile (PacketBuilder.build b))
  write env (responsePacket b.type payload)
  traceBinary (responsePacket b.type payload)

/-- The arms for a write of a block of the config profile. -/
def writeBlock (env : Environment) (b : Block) : Exec Exception Session Unit := do
  let data ← peek
  let request ← Exec.ofExcept (RequestPacket.deserialize b.payloadSize data)
  flushAll
  traceBinary request.serialize
  let result ← onConfig (PacketBuilder.parse env b request)
  write env (responseStatusPacket b.type result)
  traceBinary (responseStatusPacket b.type result)

/-- The switch on command and type. -/
def dispatch (env : Environment) (command type : UInt8) : Exec Exception Session Unit :=
  match PacketCommands.ofByte? command with
  | some .read =>
    match PacketTypes.ofByte? type with
    | some .general => readGeneral env
    | some .basic => readBlock env .basic
    | some .pedal => readBlock env .pedal
    | some .throttle => readBlock env .throttle
    | none => flushAll
  | some .write =>
    match PacketTypes.ofByte? type with
    | some .basic => writeBlock env .basic
    | some .pedal => writeBlock env .pedal
    | some .throttle => writeBlock env .throttle
    | some .general => flushAll
    | none => flushAll
  | none => flushAll

/-- `serial_handler::on_data_available`. -/
def onDataAvailable (env : Environment) : Exec Exception Session Unit := do
  let data ← peek
  traceBinary data
  match data with
  | command :: type :: _ => Exec.catchAll (dispatch env command type)
  | _ => pure ()

/-- `serial::impl::poll` after a successful `ReadFile`, which gives as many bytes as its array
holds at most. -/
def poll (env : Environment) (chunk : Bytes) : Exec Exception Session Unit := do
  Exec.modify fun s => { s with buffer := s.buffer ++ chunk }
  onDataAvailable env

end SerialHandler

/-! ## What a receive buffer amounts to -/

/-- A request the handler answers. -/
inductive Request where
  /-- Read the general block. -/
  | readGeneral
  /-- Read a block of the config profile. -/
  | readBlock (b : Block)
  /-- Write a block of the config profile. -/
  | writeBlock (b : Block) (packet : RequestPacket b.payloadSize)

/-- What the handler makes of its buffer. -/
inductive Verdict where
  /-- Too little to tell, or the front of a request: keep it. -/
  | wait
  /-- A complete request with a wrong checksum, which is kept too. -/
  | corrupt
  /-- No request: drop it. -/
  | unsupported
  /-- A request. -/
  | request (r : Request)

/-- The verdict on a buffer that starts as a packet with `n` payload bytes does. -/
def judgePacket (n : Nat) (accepted : RequestPacket n → Request) (data : Bytes) : Verdict :=
  if data.length < RequestPacket.packetSize n then .wait
  else
    match RequestPacket.deserialize n data with
    | .ok packet => .request (accepted packet)
    | .error _ => .corrupt

/-- The verdict on a buffer. -/
def judge : Bytes → Verdict
  | command :: type :: rest =>
    let data := command :: type :: rest
    match PacketCommands.ofByte? command, PacketTypes.ofByte? type with
    | some .read, some .general =>
      judgePacket SerialHandler.generalRequestSize (fun _ => .readGeneral) data
    | some .read, some .basic => .request (.readBlock .basic)
    | some .read, some .pedal => .request (.readBlock .pedal)
    | some .read, some .throttle => .request (.readBlock .throttle)
    | some .write, some .basic =>
      judgePacket Block.basic.payloadSize (.writeBlock .basic) data
    | some .write, some .pedal =>
      judgePacket Block.pedal.payloadSize (.writeBlock .pedal) data
    | some .write, some .throttle =>
      judgePacket Block.throttle.payloadSize (.writeBlock .throttle) data
    | _, _ => .unsupported
  | _ => .wait

/-- The bytes that are dumped as the request, at the front of a buffer. -/
def Request.front : Request → Bytes → Bytes
  | .readGeneral, data => data.take (RequestPacket.packetSize SerialHandler.generalRequestSize)
  | .readBlock _, data => data
  | .writeBlock b _, data => data.take (RequestPacket.packetSize b.payloadSize)

namespace SerialHandler

/-- What is left to do for a request once the buffer is flushed and the request dumped. -/
def serve (env : Environment) : Request → Exec Exception Session Unit
  | .readGeneral => do
    let payload ← onGeneral (PacketBuilder.buildGeneral env)
    write env (responsePacket .general payload)
    traceBinary (responsePacket .general payload)
  | .readBlock b => do
    let payload ← onConfig (PacketBuilder.onProfile (PacketBuilder.build b))
    write env (responsePacket b.type payload)
    traceBinary (responsePacket b.type payload)
  | .writeBlock b packet => do
    let result ← onConfig (PacketBuilder.parse env b packet)
    write env (responseStatusPacket b.type result)
    traceBinary (responseStatusPacket b.type result)

/-- What the handler does on a verdict. -/
def act (env : Environment) (s : Session) : Verdict → Outcome Exception Session Unit
  | .wait => .returned () s
  | .corrupt => .returned () s
  | .unsupported => .returned () { s with buffer := [] }
  | .request r =>
    Exec.catchAll (do traceBinary (r.front s.buffer); serve env r) { s with buffer := [] }

theorem peek_run (s : Session) : peek s = .returned s.buffer s := rfl

theorem flushAll_run (s : Session) : flushAll s = .returned () { s with buffer := [] } := rfl

theorem traceBinary_run (buffer : Bytes) (s : Session) :
    traceBinary buffer s = if Trace.Dumpable buffer then .returned () s else .undefined := by
  have hdump := Trace.isSome_dump_iff [] buffer
  rw [traceBinary]
  cases hrecords : Trace.dump [] buffer with
  | none =>
    rw [hrecords] at hdump
    rw [if_neg (by simpa using hdump)]
    rfl
  | some records =>
    rw [hrecords] at hdump
    rw [if_pos (by simpa using hdump)]
    rfl

/-- What follows a dump follows if the buffer can be dumped. -/
theorem traceBinary_bind_run (buffer : Bytes) (m : Exec Exception Session Unit) (s : Session) :
    (do traceBinary buffer; m) s = if Trace.Dumpable buffer then m s else .undefined := by
  rw [Exec.bind_run, traceBinary_run]
  by_cases hdump : Trace.Dumpable buffer
  · rw [if_pos hdump, if_pos hdump]
  · rw [if_neg hdump, if_neg hdump]

/-- No handler makes a dump defined. -/
theorem catchAll_traceBinary_bind_run (buffer : Bytes) (m : Exec Exception Session Unit)
    (s : Session) : Exec.catchAll (do traceBinary buffer; m) s =
      if Trace.Dumpable buffer then Exec.catchAll m s else .undefined := by
  rw [Exec.catchAll_run, traceBinary_bind_run]
  by_cases hdump : Trace.Dumpable buffer
  · rw [if_pos hdump, if_pos hdump]
    rfl
  · rw [if_neg hdump, if_neg hdump]

/-- An arm that decodes a packet, flushes, dumps the packet and serves. -/
theorem decode_run {n : Nat} {env : Environment} {accepted : RequestPacket n → Request}
    {arm : RequestPacket n → Exec Exception Session Unit} (s : Session)
    (hfront : ∀ p data, (accepted p).front data = data.take (RequestPacket.packetSize n))
    (harm : ∀ p, arm p = do flushAll; traceBinary p.serialize; serve env (accepted p)) :
    Exec.catchAll (do
      let data ← peek
      let packet ← Exec.ofExcept (RequestPacket.deserialize n data)
      arm packet) s = act env s (judgePacket n accepted s.buffer) := by
  rw [Exec.catchAll_run, Exec.bind_of_returned (peek_run s), judgePacket]
  by_cases hshort : s.buffer.length < RequestPacket.packetSize n
  · rw [RequestPacket.deserialize_of_short hshort, if_pos hshort]
    rfl
  · rw [if_neg hshort]
    cases hp : RequestPacket.deserialize n s.buffer with
    | error e => rfl
    | ok packet =>
      -- The packet decoded is the front of the buffer.
      obtain ⟨-, rest, hdata⟩ := RequestPacket.deserialize_eq_ok_iff.mp hp
      have hpacket : (accepted packet).front s.buffer = packet.serialize := by
        rw [hfront, hdata, ← packet.length_serialize, List.take_left]
      rw [Exec.bind_of_returned (Exec.ofExcept_ok_run packet s), harm, ← hpacket]
      rfl

/-- A request is served once it has been dumped. -/
theorem act_request (env : Environment) (s : Session) (r : Request) :
    act env s (.request r) =
      if Trace.Dumpable (r.front s.buffer) then Exec.catchAll (serve env r) { s with buffer := [] }
      else .undefined := by
  rw [act, catchAll_traceBinary_bind_run]

/-- An arm that dumps the buffer, flushes and serves without decoding. -/
theorem readBlock_run (env : Environment) (b : Block) (s : Session) :
    Exec.catchAll (readBlock env b) s = act env s (.request (.readBlock b)) := by
  rw [act_request, Request.front, readBlock, Exec.catchAll_bind_of_returned (peek_run s),
    catchAll_traceBinary_bind_run, Exec.catchAll_bind_of_returned (flushAll_run s)]
  rfl

theorem readGeneral_run (env : Environment) (s : Session) :
    Exec.catchAll (readGeneral env) s =
      act env s (judgePacket generalRequestSize (fun _ => .readGeneral) s.buffer) := by
  have harm : readGeneral env = (do
      let data ← peek
      let packet ← Exec.ofExcept (RequestPacket.deserialize generalRequestSize data)
      (fun p => do flushAll; traceBinary p.serialize; serve env .readGeneral) packet) := rfl
  rw [harm]
  exact decode_run s (fun _ _ => rfl) fun _ => rfl

theorem writeBlock_run (env : Environment) (b : Block) (s : Session) :
    Exec.catchAll (writeBlock env b) s =
      act env s (judgePacket b.payloadSize (.writeBlock b) s.buffer) := by
  have harm : writeBlock env b = (do
      let data ← peek
      let packet ← Exec.ofExcept (RequestPacket.deserialize b.payloadSize data)
      (fun p => do flushAll; traceBinary p.serialize; serve env (.writeBlock b p)) packet) := rfl
  rw [harm]
  exact decode_run s (fun _ _ => rfl) fun _ => rfl

/-- The switch does what the verdict on the buffer calls for. -/
theorem dispatch_run (env : Environment) {s : Session} {command type : UInt8} {rest : Bytes}
    (hbuffer : s.buffer = command :: type :: rest) :
    Exec.catchAll (dispatch env command type) s = act env s (judge s.buffer) := by
  simp only [hbuffer, dispatch, judge]
  rw [← hbuffer]
  cases PacketCommands.ofByte? command with
  | none => rfl
  | some c =>
    cases c with
    | read =>
      cases PacketTypes.ofByte? type with
      | none => rfl
      | some t =>
        cases t with
        | general => exact readGeneral_run env s
        | basic => exact readBlock_run env .basic s
        | pedal => exact readBlock_run env .pedal s
        | throttle => exact readBlock_run env .throttle s
    | write =>
      cases PacketTypes.ofByte? type with
      | none => rfl
      | some t =>
        cases t with
        | general => rfl
        | basic => exact writeBlock_run env .basic s
        | pedal => exact writeBlock_run env .pedal s
        | throttle => exact writeBlock_run env .throttle s

/-- **The handler does what the verdict on its buffer calls for**, once it has dumped the
buffer. -/
theorem onDataAvailable_run (env : Environment) (s : Session) :
    onDataAvailable env s =
      if Trace.Dumpable s.buffer then act env s (judge s.buffer) else .undefined := by
  rw [onDataAvailable, Exec.bind_of_returned (peek_run s), traceBinary_bind_run]
  refine if_congr Iff.rfl ?_ rfl
  cases hbuffer : s.buffer with
  | nil => rfl
  | cons command rest =>
    cases rest with
    | nil => rfl
    | cons type rest => exact (dispatch_run env hbuffer).trans (by rw [hbuffer])

end SerialHandler

/-! ## What serving a request comes to -/

/-- The values a request asks for are readable. -/
def Answerable (general config : Profile) : Request → Prop
  | .readGeneral => GeneralReadable general
  | .readBlock b => Readable config b
  | .writeBlock _ _ => True

instance (general config : Profile) : DecidablePred (Answerable general config)
  | .readGeneral => inferInstanceAs (Decidable (GeneralReadable general))
  | .readBlock b => inferInstanceAs (Decidable (Readable config b))
  | .writeBlock _ _ => .isTrue trivial

/-- The response to a request, if one is sent, can be dumped.  Those to writes always can. -/
def Request.Shown (env : Environment) (general config : Profile) : Request → Prop
  | .readGeneral => env.writes = true →
      general.exists_ = true ∨ env.opens general.filename = true →
        ∀ payload ∈ servedGeneral general, Trace.Dumpable (responsePacket .general payload)
  | .readBlock b => env.writes = true →
      ∀ payload ∈ served config b, Trace.Dumpable (responsePacket b.type payload)
  | .writeBlock _ _ => True

instance (env : Environment) (general config : Profile) :
    DecidablePred (Request.Shown env general config)
  | .readGeneral => inferInstanceAs (Decidable (_ → _ → _))
  | .readBlock _ => inferInstanceAs (Decidable (_ → _))
  | .writeBlock _ _ => .isTrue trivial

/-- A packet was sent, unless the port failed. -/
def Session.reply (env : Environment) (packet : Bytes) (s : Session) : Session :=
  { s with written := s.written ++ if env.writes then [packet] else [] }

/-- A port that works sends the packet. -/
theorem written_reply_working {s : Session} (hs : s.written = []) (packet : Bytes) :
    (s.reply .working packet).written = [packet] := by
  simp [Session.reply, Environment.working, hs]

/-- What was sent by a reply to a port that nothing had been sent to. -/
theorem eq_of_mem_reply {env : Environment} {packet packet' : Bytes} {s : Session}
    (hs : s.written = []) (h : packet' ∈ (s.reply env packet).written) : packet' = packet := by
  rw [Session.reply, hs, List.nil_append] at h
  split at h
  · exact List.mem_singleton.mp h
  · exact absurd h List.not_mem_nil

/-- Every way in which serving a request can end. -/
inductive Serves (env : Environment) (s : Session) : Request → Session → Prop where
  /-- The general profile exists on disk and is left alone. -/
  | generalOnDisk {payload : Bytes} (hserved : servedGeneral s.general = some payload)
      (hexists : s.general.exists_ = true) :
      Serves env s .readGeneral (s.reply env (responsePacket .general payload))
  /-- The general profile is filled in and saved. -/
  | generalSaved {payload : Bytes} {t : Store} (hserved : servedGeneral s.general = some payload)
      (hexists : s.general.exists_ = false) (hopens : env.opens s.general.filename = true)
      (hfill : Filled generalSlots s.general t.profile) (hfiles : t.files = s.files) :
      Serves env s .readGeneral
        ((s.setGeneralStore (Profile.saved s.general.filename t)).reply env
          (responsePacket .general payload))
  /-- The general profile is filled in, but cannot be saved. -/
  | generalUnsaved {p : Profile} (hserved : servedGeneral s.general ≠ none)
      (hexists : s.general.exists_ = false) (hopens : env.opens s.general.filename = false)
      (hfill : Filled generalSlots s.general p) :
      Serves env s .readGeneral { s with general := p }
  /-- A block is read; the config profile may be filled in. -/
  | block {b : Block} {payload : Bytes} {p : Profile}
      (hserved : served s.config b = some payload) (hfill : Filled configSlots s.config p) :
      Serves env s (.readBlock b)
        (Session.reply env (responsePacket b.type payload) { s with config := p })
  /-- A write is rejected. -/
  | rejected {b : Block} {packet : RequestPacket b.payloadSize} {status : UInt8}
      (hreject : rejection b.fields packet.payload.toList = some status) :
      Serves env s (.writeBlock b packet) (s.reply env (responseStatusPacket b.type status))
  /-- A write is committed and saved. -/
  | accepted {b : Block} {packet : RequestPacket b.payloadSize}
      (haccept : Accepted b packet.payload.toList)
      (hopens : env.opens s.config.filename = true) :
      Serves env s (.writeBlock b packet)
        ((s.setConfigStore (Profile.saved s.config.filename
          ⟨committed s.config b packet.payload.toList, s.files⟩)).reply env
            (responseStatusPacket b.type b.success))
  /-- A write is committed, but cannot be saved. -/
  | unsaved {b : Block} {packet : RequestPacket b.payloadSize}
      (haccept : Accepted b packet.payload.toList)
      (hopens : env.opens s.config.filename = false) :
      Serves env s (.writeBlock b packet)
        { s with config := committed s.config b packet.payload.toList }

namespace SerialHandler

/-- A response that is sent is dumped. -/
theorem respond_run (env : Environment) (packet : Bytes) (s : Session) :
    Exec.catchAll (do write env packet; traceBinary packet) s =
      if env.writes = true → Trace.Dumpable packet then .returned () (s.reply env packet)
      else .undefined := by
  cases hwrites : env.writes with
  | false =>
    have hthrow : write env packet s = .threw writeFailure s := by simp [write, hwrites]
    rw [Exec.catchAll_bind_of_threw hthrow, if_pos (by simp), Session.reply, hwrites]
    simp
  | true =>
    have hwrite : write env packet s = .returned () (s.reply env packet) := by
      simp [write, hwrites, Session.reply]
    rw [Exec.catchAll_bind_of_returned hwrite, Exec.catchAll_run, traceBinary_run]
    by_cases hdump : Trace.Dumpable packet
    · rw [if_pos hdump, if_pos fun _ => hdump]
    · rw [if_neg hdump, if_neg fun h => hdump (h rfl)]

/-- Code that comes to sending a response and dumping it, where `P` says that the response
can be dumped if it is sent. -/
theorem responds {env : Environment} {s t : Session} {r : Request} {packet : Bytes} {P : Prop}
    (hcode : Exec.catchAll (serve env r) s =
      Exec.catchAll (do write env packet; traceBinary packet) t)
    (hP : P ↔ (env.writes = true → Trace.Dumpable packet))
    (hserves : Serves env s r (t.reply env packet)) :
    (¬ P ∧ Exec.catchAll (serve env r) s = .undefined) ∨
    (P ∧ ∃ s', Exec.catchAll (serve env r) s = .returned () s' ∧ Serves env s r s') := by
  rw [hcode, respond_run, hP]
  by_cases hdump : env.writes = true → Trace.Dumpable packet
  · rw [if_pos hdump]
    exact Or.inr ⟨hdump, _, rfl, hserves⟩
  · rw [if_neg hdump]
    exact Or.inl ⟨hdump, rfl⟩

/-- A status has no percent sign. -/
theorem dumpable_status (b : Block) {status : UInt8} (h : status ≤ b.success) :
    Trace.Dumpable (responseStatusPacket b.type status) := by
  refine Trace.dumpable_of_notMem fun hmem => ?_
  rcases List.mem_cons.mp hmem with htype | hmem
  · exact absurd htype (by cases b <;> decide)
  · rw [← List.mem_singleton.mp hmem] at h
    exact absurd h (by cases b <;> decide)

theorem onGeneral_of_returned {α : Type} {m : Exec Exception Store α} {s : Session} {a : α}
    {t : Store} (h : m s.generalStore = .returned a t) :
    onGeneral m s = .returned a (s.setGeneralStore t) := Exec.zoom_of_returned h

theorem onConfig_of_returned {α : Type} {m : Exec Exception Store α} {s : Session} {a : α}
    {t : Store} (h : m s.configStore = .returned a t) :
    onConfig m s = .returned a (s.setConfigStore t) := Exec.zoom_of_returned h

theorem serve_readGeneral_run (env : Environment) (s : Session) :
    (¬ (GeneralReadable s.general ∧ Request.readGeneral.Shown env s.general s.config) ∧
      Exec.catchAll (serve env .readGeneral) s = .undefined) ∨
    ((GeneralReadable s.general ∧ Request.readGeneral.Shown env s.general s.config) ∧
      ∃ s', Exec.catchAll (serve env .readGeneral) s = .returned () s' ∧
        Serves env s .readGeneral s') := by
  rcases PacketBuilder.buildGeneral_run env s.generalStore with
    ⟨hnone, hrun⟩ | ⟨payload, p, hsome, hfill, hrun⟩
  · refine Or.inl ⟨fun h => ?_, Exec.catchAll_bind_of_undefined (Exec.zoom_of_undefined hrun)⟩
    have hsome := (isSome_servedGeneral_iff s.general).mpr h.1
    rw [show servedGeneral s.general = none from hnone] at hsome
    simp at hsome
  · have hserved : servedGeneral s.general = some payload := hsome
    have hreadable : GeneralReadable s.general := by
      rw [← isSome_servedGeneral_iff, hserved, Option.isSome_some]
    -- The response is sent if the save goes well and the port takes it.
    have hshown : (s.general.exists_ = true ∨ env.opens s.general.filename = true) →
        ((GeneralReadable s.general ∧ Request.readGeneral.Shown env s.general s.config) ↔
          (env.writes = true → Trace.Dumpable (responsePacket .general payload))) := by
      intro hgoes
      refine (and_iff_right hreadable).trans (forall_congr' fun _ => ?_)
      rw [forall_prop_of_true hgoes, hserved]
      simp
    cases hexists : s.general.exists_ with
    | true =>
      have hp : p = s.general := hfill.eq_of_exists hexists
      subst hp
      refine responds ?_ (hshown (Or.inl hexists)) (.generalOnDisk hserved hexists)
      rw [serve, Exec.catchAll_bind_of_returned
        (onGeneral_of_returned (hrun.trans (if_pos hexists)))]
      rfl
    | false =>
      have hsave := hrun.trans (if_neg (ne_true_of_eq_false hexists))
      cases hopens : env.opens s.general.filename with
      | true =>
        refine responds ?_ (hshown (Or.inr hopens))
          (.generalSaved (t := ⟨p, s.files⟩) hserved hexists hopens hfill rfl)
        rw [serve, Exec.catchAll_bind_of_returned
          (onGeneral_of_returned (hsave.trans (if_pos hopens)))]
        rfl
      | false =>
        have hthrow := hsave.trans (if_neg (ne_true_of_eq_false hopens))
        refine Or.inr ⟨⟨hreadable, ?_⟩, _,
          Exec.catchAll_bind_of_threw (Exec.zoom_of_threw hthrow),
          .generalUnsaved (by rw [hserved]; simp) hexists hopens hfill⟩
        intro _ hgoes
        rw [hexists, hopens] at hgoes
        simp at hgoes

theorem serve_readBlock_run (env : Environment) (b : Block) (s : Session) :
    (¬ (Readable s.config b ∧ (Request.readBlock b).Shown env s.general s.config) ∧
      Exec.catchAll (serve env (.readBlock b)) s = .undefined) ∨
    ((Readable s.config b ∧ (Request.readBlock b).Shown env s.general s.config) ∧
      ∃ s', Exec.catchAll (serve env (.readBlock b)) s = .returned () s' ∧
        Serves env s (.readBlock b) s') := by
  rcases PacketBuilder.build_run b s.config with ⟨hnone, hrun⟩ | ⟨payload, p, hsome, hrun, hfill⟩
  · refine Or.inl ⟨fun h => (served_eq_none_iff s.config b).mp hnone h.1, ?_⟩
    exact Exec.catchAll_bind_of_undefined (Exec.zoom_of_undefined (Exec.zoom_of_undefined hrun))
  · have hreadable : Readable s.config b := by rw [← isSome_served_iff, hsome, Option.isSome_some]
    have hreturn : PacketBuilder.onProfile (PacketBuilder.build b) s.configStore =
        .returned payload ⟨p, s.files⟩ := Exec.zoom_of_returned hrun
    refine responds ?_ ?_ (.block hsome hfill)
    · rw [serve, Exec.catchAll_bind_of_returned (onConfig_of_returned hreturn)]
      rfl
    · refine (and_iff_right hreadable).trans (forall_congr' fun _ => ?_)
      rw [hsome]
      simp

theorem serve_writeBlock_run (env : Environment) {b : Block}
    (packet : RequestPacket b.payloadSize) (s : Session) :
    ∃ s', Exec.catchAll (serve env (.writeBlock b packet)) s = .returned () s' ∧
      Serves env s (.writeBlock b packet) s' := by
  have hrun := PacketBuilder.parse_run env b packet s.configStore
  cases hreject : rejection b.fields packet.payload.toList with
  | some status =>
    rw [hreject] at hrun
    refine ⟨_, ?_, .rejected hreject⟩
    rw [serve, Exec.catchAll_bind_of_returned (onConfig_of_returned hrun), respond_run,
      if_pos fun _ => dumpable_status b (UInt8.le_of_lt (status_lt_success hreject))]
    rfl
  | none =>
    rw [hreject] at hrun
    cases hopens : env.opens s.config.filename with
    | true =>
      refine ⟨_, ?_, .accepted hreject hopens⟩
      rw [serve, Exec.catchAll_bind_of_returned
        (onConfig_of_returned (hrun.trans (if_pos hopens))), respond_run,
        if_pos fun _ => dumpable_status b (UInt8.le_refl _)]
      rfl
    | false =>
      have hthrow := hrun.trans (if_neg (ne_true_of_eq_false hopens))
      exact ⟨_, Exec.catchAll_bind_of_threw (Exec.zoom_of_threw hthrow), .unsaved hreject hopens⟩

/-- **Serving a request** is defined exactly when the request is answerable and its response
can be dumped, and then comes to one of the ends listed. -/
theorem serve_run (env : Environment) (r : Request) (s : Session) :
    (¬ (Answerable s.general s.config r ∧ r.Shown env s.general s.config) ∧
      Exec.catchAll (serve env r) s = .undefined) ∨
    ((Answerable s.general s.config r ∧ r.Shown env s.general s.config) ∧
      ∃ s', Exec.catchAll (serve env r) s = .returned () s' ∧ Serves env s r s') := by
  cases r with
  | readGeneral => exact serve_readGeneral_run env s
  | readBlock b => exact serve_readBlock_run env b s
  | writeBlock b packet => exact Or.inr ⟨⟨trivial, trivial⟩, serve_writeBlock_run env packet s⟩

end SerialHandler

/-- Serving does not touch the receive buffer. -/
theorem Serves.buffer_eq {env : Environment} {s s' : Session} {r : Request}
    (h : Serves env s r s') : s'.buffer = s.buffer := by
  cases h <;> rfl

/-! ## What a data event comes to -/

/-- Every way in which the handler can end on a verdict. -/
inductive Handles (env : Environment) (s : Session) : Verdict → Session → Prop where
  | wait : Handles env s .wait s
  | corrupt : Handles env s .corrupt s
  | unsupported : Handles env s .unsupported { s with buffer := [] }
  | request {r : Request} {s' : Session} (h : Serves env { s with buffer := [] } r s') :
      Handles env s (.request r) s'

/-- A request empties the buffer. -/
theorem Handles.buffer_eq_nil {env : Environment} {s s' : Session} {r : Request}
    (h : Handles env s (.request r) s') : s'.buffer = [] := by
  cases h with
  | request hserves => exact hserves.buffer_eq

/-- The request, if it is one, is answerable. -/
def Verdict.Answerable (general config : Profile) : Verdict → Prop
  | .request r => BafangEmulator.Answerable general config r
  | .wait => True
  | .corrupt => True
  | .unsupported => True

instance (general config : Profile) : DecidablePred (Verdict.Answerable general config)
  | .request r => inferInstanceAs (Decidable (BafangEmulator.Answerable general config r))
  | .wait => .isTrue trivial
  | .corrupt => .isTrue trivial
  | .unsupported => .isTrue trivial

/-- What is dumped for a verdict on `data` can be: the request, and the response to it. -/
def Verdict.Shown (env : Environment) (general config : Profile) (data : Bytes) : Verdict → Prop
  | .request r => Trace.Dumpable (r.front data) ∧ r.Shown env general config
  | .wait => True
  | .corrupt => True
  | .unsupported => True

instance (env : Environment) (general config : Profile) (data : Bytes) :
    DecidablePred (Verdict.Shown env general config data)
  | .request r => inferInstanceAs (Decidable (Trace.Dumpable (r.front data) ∧ _))
  | .wait => .isTrue trivial
  | .corrupt => .isTrue trivial
  | .unsupported => .isTrue trivial

/-- All that the handler dumps can be dumped: what was received, and what the verdict on it
calls for. -/
def Session.Printable (env : Environment) (s : Session) : Prop :=
  Trace.Dumpable s.buffer ∧ (judge s.buffer).Shown env s.general s.config s.buffer

/-- The handler can do what its buffer calls for. -/
def Session.Answerable (s : Session) : Prop := (judge s.buffer).Answerable s.general s.config

instance (env : Environment) (s : Session) : Decidable (s.Printable env) :=
  inferInstanceAs (Decidable (_ ∧ _))

instance (s : Session) : Decidable s.Answerable :=
  inferInstanceAs (Decidable ((judge s.buffer).Answerable s.general s.config))

namespace SerialHandler

/-- **The handler** has undefined behaviour exactly on a dump with a conversion in it and on
a request that is not answerable, and else returns from one of the ends listed. -/
theorem onDataAvailable_cases (env : Environment) (s : Session) :
    (¬ (s.Printable env ∧ s.Answerable) ∧ onDataAvailable env s = .undefined) ∨
    ((s.Printable env ∧ s.Answerable) ∧
      ∃ s', onDataAvailable env s = .returned () s' ∧ Handles env s (judge s.buffer) s') := by
  rw [onDataAvailable_run, Session.Printable, Session.Answerable]
  by_cases hdump : Trace.Dumpable s.buffer
  · rw [if_pos hdump]
    cases judge s.buffer with
    | wait => exact Or.inr ⟨⟨⟨hdump, trivial⟩, trivial⟩, s, rfl, .wait⟩
    | corrupt => exact Or.inr ⟨⟨⟨hdump, trivial⟩, trivial⟩, s, rfl, .corrupt⟩
    | unsupported => exact Or.inr ⟨⟨⟨hdump, trivial⟩, trivial⟩, _, rfl, .unsupported⟩
    | request r =>
      rw [act_request]
      by_cases hfront : Trace.Dumpable (r.front s.buffer)
      · rw [if_pos hfront]
        rcases serve_run env r { s with buffer := [] } with
          ⟨hnot, hrun⟩ | ⟨⟨hready, hshown⟩, s', hrun, hserves⟩
        · exact Or.inl ⟨fun h => hnot ⟨h.2, h.1.2.2⟩, hrun⟩
        · exact Or.inr ⟨⟨⟨hdump, hfront, hshown⟩, hready⟩, s', hrun, .request hserves⟩
      · rw [if_neg hfront]
        exact Or.inl ⟨fun h => hfront h.1.2.1, rfl⟩
  · rw [if_neg hdump]
    exact Or.inl ⟨fun h => hdump h.1.1, rfl⟩

end SerialHandler

end BafangEmulator
