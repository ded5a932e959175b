/-
  Delivery.lean --- requests that arrive in pieces, on many ports at once.

  A client sends one valid request at a time and waits for the response; the line
  may cut its bytes into chunks anywhere.  A delivery is one data event of such a
  client.  Whatever the cuts and however the ports interleave, the emulator is
  silent until the last byte of a request and then sends one response
  (`one_response_each`), except where the value asked for is undefined, or what was
  received or is sent cannot be dumped: then nothing is promised.
-/
import BafangEmulator.Controller

set_option autoImplicit false

namespace BafangEmulator

open Foundation

/-! ## Clients -/

/-- A piece of a valid request: what its client had sent before, the chunk received
now, and what is still to come. -/
structure Delivery (Port : Type) where
  port : Port
  request : ValidRequest
  sent : Bytes
  chunk : Bytes
  rest : Bytes
  wire_eq : request.wire = sent ++ chunk ++ rest

/-- The data event of a delivery, while everything works. -/
def Delivery.event {Port : Type} (d : Delivery Port) : Event Port where
  port := d.port
  chunk := d.chunk
  env := .working

/-- The request that the client of each port is sending, and the bytes of it sent so
far; none when it is waiting for nothing. -/
abbrev Clients (Port : Type) : Type := Port → Option (ValidRequest × Bytes)

namespace Clients

variable {Port : Type}

/-- The client of the port can send this piece next. -/
def Sends (clients : Clients Port) (d : Delivery Port) : Prop :=
  match clients d.port with
  | none => d.sent = []
  | some (request, sent) => d.request = request ∧ d.sent = sent

/-- The bytes of an unanswered request that a port has received. -/
def pending (clients : Clients Port) (port : Port) : Bytes :=
  match clients port with
  | none => []
  | some (_, sent) => sent

/-- A client goes on with its request only. -/
theorem Sends.sent_eq {clients : Clients Port} {d : Delivery Port} (h : clients.Sends d) :
    d.sent = clients.pending d.port := by
  unfold Sends at h
  unfold pending
  cases hclient : clients d.port with
  | none =>
    rw [hclient] at h
    exact h
  | some request =>
    rw [hclient] at h
    exact h.2

variable [DecidableEq Port]

/-- The clients after a piece has been delivered. -/
def next (clients : Clients Port) (d : Delivery Port) : Clients Port :=
  Function.update clients d.port
    (if d.rest = [] then none else some (d.request, d.sent ++ d.chunk))

/-- The deliveries are those of clients that send one request at a time. -/
def Disciplined : Clients Port → List (Delivery Port) → Prop
  | _, [] => True
  | clients, d :: ds => clients.Sends d ∧ Disciplined (clients.next d) ds

theorem pending_next_of_ne {clients : Clients Port} {d : Delivery Port} {port : Port}
    (h : port ≠ d.port) : (clients.next d).pending port = clients.pending port := by
  simp only [pending, next, Function.update_of_ne h]

theorem pending_next_self (clients : Clients Port) (d : Delivery Port) :
    (clients.next d).pending d.port = if d.rest = [] then [] else d.sent ++ d.chunk := by
  simp only [pending, next, Function.update_self]
  by_cases hrest : d.rest = []
  · simp only [if_pos hrest]
  · simp only [if_neg hrest]

end Clients

/-! ## Responses -/

namespace Emulator

variable {Port : Type} [DecidableEq Port]

/-- The emulator as a machine that takes deliveries. -/
def deliveryMachine : Machine (Emulator Port) (Delivery Port) (Observation Port) where
  step em d := machine.step em d.event

/-- What a client can expect of a delivery. -/
structure Answered (em : Emulator Port) (d : Delivery Port) (em' : Emulator Port)
    (o : Observation Port) : Prop where
  /-- Whatever is sent is sent on the client's own port. -/
  port_eq : o.port = d.port
  /-- Before the last byte of the request nothing is sent and nothing is changed. -/
  silent : d.rest ≠ [] → o.written = [] ∧
    em'.general = em.general ∧ em'.config = em.config ∧ em'.files = em.files
  /-- With the last byte one response is sent, and nothing stays in the buffer. -/
  response : d.rest = [] →
    (∃ packet, o.written = [packet] ∧ packet.head? = some d.request.type.toByte) ∧
      em'.buffers d.port = []

/-- What has been received of the request can be dumped; and a request that is complete with
this delivery asks for values that are readable, and whose response can be dumped. -/
structure Ready (em : Emulator Port) (d : Delivery Port) : Prop where
  dumpable : Trace.Dumpable (d.sent ++ d.chunk)
  answerable : d.rest = [] → BafangEmulator.Answerable em.general em.config d.request.request
  shown : d.rest = [] → d.request.request.Shown .working em.general em.config

omit [DecidableEq Port] in
theorem ready_def (em : Emulator Port) (d : Delivery Port) : em.Ready d ↔
    Trace.Dumpable (d.sent ++ d.chunk) ∧
      (d.rest = [] → BafangEmulator.Answerable em.general em.config d.request.request) ∧
      (d.rest = [] → d.request.request.Shown .working em.general em.config) :=
  ⟨fun h => ⟨h.dumpable, h.answerable, h.shown⟩, fun h => ⟨h.1, h.2.1, h.2.2⟩⟩

instance (em : Emulator Port) (d : Delivery Port) : Decidable (em.Ready d) :=
  decidable_of_iff _ (ready_def em d).symm

/-- The receive buffers hold what the clients have sent of unanswered requests. -/
def InStep (em : Emulator Port) (ds : List (Delivery Port)) : Prop :=
  ∃ clients : Clients Port, clients.Disciplined ds ∧ ∀ port, em.buffers port = clients.pending port

omit [DecidableEq Port] in
theorem received_eq {em : Emulator Port} {clients : Clients Port} {d : Delivery Port}
    (hbuffers : ∀ port, em.buffers port = clients.pending port) (hsends : clients.Sends d) :
    em.received d.event = d.sent ++ d.chunk := by
  rw [received, hsends.sent_eq, ← hbuffers d.port]
  rfl

/-- The buffers follow the clients. -/
theorem inStep_conclude {em : Emulator Port} {clients : Clients Port} {d : Delivery Port}
    {ds : List (Delivery Port)} {s' : Session}
    (hbuffers : ∀ port, em.buffers port = clients.pending port)
    (hdisciplined : (clients.next d).Disciplined ds)
    (hs' : s'.buffer = if d.rest = [] then [] else d.sent ++ d.chunk) :
    (em.conclude d.port s').InStep ds := by
  refine ⟨clients.next d, hdisciplined, fun port => ?_⟩
  by_cases hport : port = d.port
  · rw [hport, conclude_buffers_self, Clients.pending_next_self, hs']
  · rw [conclude_buffers_of_ne hport, Clients.pending_next_of_ne hport, hbuffers port]

omit [DecidableEq Port] in
/-- The verdict on what has been received of a request. -/
theorem judge_received {em : Emulator Port} {d : Delivery Port}
    (hreceived : em.received d.event = d.sent ++ d.chunk) :
    judge (em.received d.event) = if d.rest = [] then .request d.request.request else .wait := by
  have hwire : d.request.wire = em.received d.event ++ d.rest := by rw [hreceived, d.wire_eq]
  by_cases hrest : d.rest = []
  · have hjudge := d.request.judge_wire_append []
    rw [if_pos hrest]
    rwa [hwire, hrest, List.append_nil, List.append_nil] at hjudge
  · rw [if_neg hrest]
    exact ValidRequest.judge_of_wire_eq_append hwire hrest

omit [DecidableEq Port] in
/-- **A delivery is ready** exactly when the handler's behaviour on it is defined. -/
theorem ready_iff {em : Emulator Port} {d : Delivery Port}
    (hreceived : em.received d.event = d.sent ++ d.chunk) :
    em.Ready d ↔ em.Printable d.event ∧ em.Answerable d.event := by
  have hjudge := judge_received hreceived
  have hprintable : em.Printable d.event ↔ Trace.Dumpable (em.received d.event) ∧
      (judge (em.received d.event)).Shown .working em.general em.config (em.received d.event) :=
    Iff.rfl
  have hanswerable : em.Answerable d.event ↔
      (judge (em.received d.event)).Answerable em.general em.config := Iff.rfl
  rw [ready_def, hprintable, hanswerable, hjudge, hreceived]
  by_cases hrest : d.rest = []
  · have hwire : d.sent ++ d.chunk = d.request.wire := by rw [d.wire_eq, hrest, List.append_nil]
    simp only [hrest, if_true, forall_const, hwire, Verdict.Shown, Verdict.Answerable,
      d.request.front_wire]
    grind
  · simp [hrest, Verdict.Shown, Verdict.Answerable]

/-- A delivery that completes its request is answered. -/
theorem answered_last {em : Emulator Port} {d : Delivery Port} {ds : List (Delivery Port)}
    {clients : Clients Port} (hbuffers : ∀ port, em.buffers port = clients.pending port)
    (hdisciplined : (clients.next d).Disciplined ds)
    (hreceived : em.received d.event = d.sent ++ d.chunk) (hrest : d.rest = [])
    (hready : em.Ready d) :
    ∃ em' o, deliveryMachine.step em d = some (em', o) ∧ Answered em d em' o ∧
      em'.InStep ds := by
  have hjudge := judge_received hreceived
  rw [if_pos hrest] at hjudge
  rcases step_cases em d.event with ⟨hnot, -⟩ | ⟨-, s', hhandles, hstep⟩
  · exact absurd ((ready_iff hreceived).mp hready) hnot
  · rw [hjudge] at hhandles
    have hnil := hhandles.buffer_eq_nil
    cases hhandles with
    | request hserves =>
      obtain ⟨packet, hanswer, hwritten⟩ := hserves.answer rfl
      have hhead := Controller.head?_answer hanswer
      rw [d.request.type_request] at hhead
      refine ⟨_, _, hstep, ⟨rfl, fun hne => absurd hrest hne, fun _ => ?_⟩, ?_⟩
      · refine ⟨⟨packet, hwritten, hhead⟩, ?_⟩
        exact (conclude_buffers_self em d.port s').trans hnil
      · exact inStep_conclude hbuffers hdisciplined (by rw [if_pos hrest, hnil])

/-- A delivery that leaves more of its request to come is kept. -/
theorem answered_before {em : Emulator Port} {d : Delivery Port} {ds : List (Delivery Port)}
    {clients : Clients Port} (hbuffers : ∀ port, em.buffers port = clients.pending port)
    (hdisciplined : (clients.next d).Disciplined ds)
    (hreceived : em.received d.event = d.sent ++ d.chunk) (hrest : d.rest ≠ [])
    (hready : em.Ready d) :
    ∃ em' o, deliveryMachine.step em d = some (em', o) ∧ Answered em d em' o ∧
      em'.InStep ds := by
  have hjudge := judge_received hreceived
  rw [if_neg hrest] at hjudge
  rcases step_cases em d.event with ⟨hnot, -⟩ | ⟨-, s', hhandles, hstep⟩
  · exact absurd ((ready_iff hreceived).mp hready) hnot
  · rw [hjudge] at hhandles
    cases hhandles with
    | wait =>
      refine ⟨_, _, hstep, ⟨rfl, fun _ => ⟨rfl, rfl, rfl, rfl⟩, fun heq => absurd heq hrest⟩, ?_⟩
      refine inStep_conclude hbuffers hdisciplined ?_
      rw [if_neg hrest, ← hreceived]
      rfl

/-- One delivery is answered as it should be, when it is ready. -/
theorem answered_step {em : Emulator Port} {d : Delivery Port} {ds : List (Delivery Port)}
    (h : em.InStep (d :: ds)) (hready : em.Ready d) :
    ∃ em' o, deliveryMachine.step em d = some (em', o) ∧ Answered em d em' o ∧
      em'.InStep ds := by
  obtain ⟨clients, ⟨hsends, hdisciplined⟩, hbuffers⟩ := h
  have hreceived := received_eq hbuffers hsends
  by_cases hrest : d.rest = []
  · exact answered_last hbuffers hdisciplined hreceived hrest hready
  · exact answered_before hbuffers hdisciplined hreceived hrest hready

/-- A delivery that has an outcome was ready. -/
theorem ready_of_step {em em' : Emulator Port} {d : Delivery Port} {ds : List (Delivery Port)}
    {o : Observation Port} (h : em.InStep (d :: ds))
    (hstep : deliveryMachine.step em d = some (em', o)) : em.Ready d := by
  obtain ⟨clients, ⟨hsends, -⟩, hbuffers⟩ := h
  have hdefined : (machine.step em d.event).isSome = true := by
    rw [show machine.step em d.event = some (em', o) from hstep]
    rfl
  exact (ready_iff (received_eq hbuffers hsends)).mpr ((isSome_step_iff em d.event).mp hdefined)

/-- **One response to each request, whatever the chunking.**  For clients that send
one valid request at a time, on any number of ports, every delivery is answered as
expected exactly when every request asks for readable values, and all that is received and
sent on the way can be dumped. -/
theorem one_response_each {em : Emulator Port} {ds : List (Delivery Port)}
    (hstart : ∀ port, em.buffers port = []) (hclients : Clients.Disciplined (fun _ => none) ds) :
    deliveryMachine.EachStep Answered em ds ↔ deliveryMachine.Along Ready em ds := by
  have hinStep : em.InStep ds := ⟨fun _ => none, hclients, hstart⟩
  exact Machine.eachStep_iff_along answered_step ready_of_step hinStep

/-- A throttle write in two pieces on one port; and a throttle read on another one, byte by byte
after an empty chunk, its last byte after the write. -/
def byteByByte : List (Delivery Bool) :=
  [ { port := true, request := .sampleWrite, sent := [],
      chunk := ValidRequest.sampleWrite.wire.take 4,
      rest := ValidRequest.sampleWrite.wire.drop 4, wire_eq := rfl },
    { port := false, request := .readBlock .throttle, sent := [], chunk := [],
      rest := [0x11, 0x54], wire_eq := rfl },
    { port := false, request := .readBlock .throttle, sent := [], chunk := [0x11],
      rest := [0x54], wire_eq := rfl },
    { port := true, request := .sampleWrite, sent := ValidRequest.sampleWrite.wire.take 4,
      chunk := ValidRequest.sampleWrite.wire.drop 4, rest := [], wire_eq := rfl },
    { port := false, request := .readBlock .throttle, sent := [0x11], chunk := [0x54],
      rest := [], wire_eq := rfl } ]

/-- The throttle block is always readable, and there is no percent sign. -/
theorem one_response_each_byteByByte : deliveryMachine.EachStep Answered bare byteByByte := by
  have hclients : Clients.Disciplined (fun _ => none) byteByByte :=
    ⟨rfl, rfl, ⟨rfl, rfl⟩, ⟨rfl, rfl⟩, ⟨rfl, rfl⟩, trivial⟩
  have hready : deliveryMachine.Along Ready bare byteByByte := by decide +kernel
  exact (one_response_each (fun _ => rfl) hclients).mpr hready

/-- A config file with a wheel index that is not in the table. -/
def wheelFile : Files := fun path =>
  if path = bytes "config.el" then some (bytes "[Basic]\nWD=99\n") else none

/-- The emulator that has loaded it. -/
def wheelEmulator : Emulator Unit where
  buffers _ := []
  general := { exists_ := false, filename := bytes "general.el", data := ∅ }
  config :=
    { exists_ := true
      filename := bytes "config.el"
      data := (∅ : ProfileData).set (bytes "Basic") (bytes "WD") (bytes "99") }
  files := wheelFile

/-- A basic read in one piece. -/
def basicRead : Delivery Unit where
  port := ()
  request := .readBlock .basic
  sent := []
  chunk := [0x11, 0x52]
  rest := []
  wire_eq := rfl

/-- The file is loaded, but no response to a basic read is to be had: `build` reads
past the end of its wheel table. -/
theorem basicRead_has_no_response :
    launch (bytes "general.el") (bytes "config.el") wheelFile = .ok wheelEmulator ∧
      Clients.Disciplined (fun _ => none) [basicRead] ∧
      ¬ deliveryMachine.EachStep Answered wheelEmulator [basicRead] := by
  have hclients : Clients.Disciplined (fun _ => none) [basicRead] := ⟨rfl, trivial⟩
  refine ⟨rfl, hclients, ?_⟩
  rintro ⟨em', o, hstep, -⟩
  have hinStep : wheelEmulator.InStep [basicRead] := ⟨fun _ => none, hclients, fun _ => rfl⟩
  have hwheel := ((ready_of_step hinStep hstep).answerable rfl).1.2
  exact absurd hwheel (by decide)

end Emulator

end BafangEmulator
