/-
  TraceLog.lean --- trace.cpp: messages of several threads in the log.

  `message` takes a mutex of its own and prints the source file, the line and the date,
  then the message, then a line ending, to each output that the flags name.  Each of these
  is a step of its own here, and the threads interleave as the scheduler likes.

  A record is never torn by another one (`records_stay_whole`): the library's rule for
  threads that append to logs, once the loop over the flags is a script (`loop_eq_writes`).
-/
import BafangEmulator.Foundation.AppendLog
import BafangEmulator.Foundation.Decimal

set_option autoImplicit false

namespace BafangEmulator.TraceLog

open Foundation AppendLog

/-- Where messages go. -/
inductive Output where
  /-- `current_file`. -/
  | file
  /-- `stdout`. -/
  | console
  deriving DecidableEq

/-- `flag_file`. -/
def flagFile : UInt32 := 1

/-- `flag_console`. -/
def flagConsole : UInt32 := 2

/-- A call of `message`. -/
structure Message (ι : Type) where
  /-- The thread that calls. -/
  thread : ι
  /-- `__FILE__`. -/
  file : Bytes
  line : Nat
  /-- What `date_time` gives. -/
  date : Bytes
  /-- What `vfprintf` prints. -/
  text : Bytes
  /-- Whether `fopen` succeeds. -/
  opens : Bool

variable {ι : Type}

/-- `leaf`: what follows the last backslash. -/
def leaf (path : Bytes) : Bytes := path.rtakeWhile (· != 0x5C)

/-- `"%s|L:%d|%s|"`. -/
def header (m : Message ι) : Bytes :=
  leaf m.file ++ bytes "|L:" ++ decimalNat m.line ++ bytes "|" ++ m.date ++ bytes "|"

/-- What is in the outputs, and nothing for each thread. -/
abbrev Logs : Type := (Output → Bytes) × Unit

/-- A call of `fprintf` or `vfprintf`. -/
def print (k : Output) (text : Bytes) : Code Empty Logs Unit :=
  .step (fun s => (Function.update s.1 k (s.1 k ++ text), s.2)) fun _ => .ret ()

/-- The body of the loop, once it has an output. -/
def printRecord (k : Output) (m : Message ι) : Code Empty Logs Unit := do
  print k (header m)
  print k m.text
  print k (bytes "\r\n")

/-- The next operation is cleared. -/
theorem toNat_clear_lt {operations flag : UInt32} (h : operations &&& flag ≠ 0)
    (hflag : ~~~flag &&& flag = 0) : (operations &&& ~~~flag).toNat < operations.toNat := by
  have hle : (operations &&& ~~~flag).toNat ≤ operations.toNat := by
    rw [UInt32.toNat_and]
    exact Nat.and_le_left
  refine lt_of_le_of_ne hle fun heq => h ?_
  have hsame : operations &&& ~~~flag = operations := UInt32.toNat_inj.mp heq
  rw [← hsame, UInt32.and_assoc, hflag, UInt32.and_zero]

/-- The loop of `message`. -/
def loop (m : Message ι) (operations : UInt32) : Code Empty Logs Unit :=
  if operations = 0 then pure ()
  else if operations &&& flagFile ≠ 0 then do
    -- A file that cannot be opened is passed over.
    if m.opens then printRecord .file m
    loop m (operations &&& ~~~flagFile)
  else if operations &&& flagConsole ≠ 0 then do
    printRecord .console m
    loop m (operations &&& ~~~flagConsole)
  -- Other operations are ignored.
  else pure ()
termination_by operations.toNat
decreasing_by
  · rename_i hfile
    exact toNat_clear_lt hfile (by decide)
  · rename_i hconsole
    exact toNat_clear_lt hconsole (by decide)

/-- The threads that call `message`. -/
def threads (ι : Type) (current_flags : UInt32) : Threads ι (Output → Bytes) Unit Empty (Message ι) Unit where
  thread := Message.thread
  arrive _ := id
  body m := loop m current_flags
  observe _ _ _ := ()

/-! ## Messages as scripts -/

/-- What one message is in the log. -/
def record (m : Message ι) : Bytes := header m ++ m.text ++ bytes "\r\n"

/-- The pieces of a record. -/
def pieces (k : Output) (m : Message ι) : List (Output × Bytes) :=
  [(k, header m), (k, m.text), (k, bytes "\r\n")]

/-- What `message` prints, and where. -/
def script (flags : UInt32) (m : Message ι) : List (Output × Bytes) :=
  (if flags &&& flagFile ≠ 0 ∧ m.opens = true then pieces .file m else []) ++
    if flags &&& flagConsole ≠ 0 then pieces .console m else []

theorem printRecord_eq_writes (k : Output) (m : Message ι) :
    (printRecord k m : Code Empty Logs Unit) = writes (pieces k m) := rfl

theorem loop_of_none {m : Message ι} {operations : UInt32} (hfile : operations &&& flagFile = 0)
    (hconsole : operations &&& flagConsole = 0) : (loop m operations : Code Empty Logs Unit) = pure () := by
  rw [loop]
  simp [hfile, hconsole]

/-- Without the file, the loop comes to the console. -/
theorem loop_of_console {m : Message ι} {operations : UInt32}
    (hfile : operations &&& flagFile = 0) : (loop m operations : Code Empty Logs Unit) =
      writes (if operations &&& flagConsole ≠ 0 then pieces .console m else []) := by
  by_cases hconsole : operations &&& flagConsole = 0
  · rw [loop_of_none hfile hconsole, if_neg (not_not.mpr hconsole)]
    rfl
  · have hnone : (loop m (operations &&& ~~~flagConsole) : Code Empty Logs Unit) = pure () := by
      refine loop_of_none ?_ ?_
      · rw [UInt32.and_assoc, show ~~~flagConsole &&& flagFile = flagFile from rfl, hfile]
      · rw [UInt32.and_assoc, show ~~~flagConsole &&& flagConsole = 0 from rfl, UInt32.and_zero]
    have hzero : operations ≠ 0 := by
      rintro rfl
      exact hconsole (UInt32.zero_and)
    have hend : (pure () : Code Empty Logs Unit) = writes [] := rfl
    rw [loop, if_neg hzero, if_neg (not_not.mpr hfile), if_pos hconsole, if_pos hconsole, hnone,
      printRecord_eq_writes, hend, ← writes_append, List.append_nil]

/-- **The loop over the flags** prints the script. -/
theorem loop_eq_writes (m : Message ι) (operations : UInt32) :
    (loop m operations : Code Empty Logs Unit) = writes (script operations m) := by
  by_cases hfile : operations &&& flagFile = 0
  · have hskip : ¬ (operations &&& flagFile ≠ 0 ∧ m.opens = true) := fun h => h.1 hfile
    rw [loop_of_console hfile, script, if_neg hskip, List.nil_append]
  · have hclear : (operations &&& ~~~flagFile) &&& flagFile = 0 := by
      rw [UInt32.and_assoc, show ~~~flagFile &&& flagFile = 0 from rfl, UInt32.and_zero]
    have hkeep : (operations &&& ~~~flagFile) &&& flagConsole = operations &&& flagConsole := by
      rw [UInt32.and_assoc, show ~~~flagFile &&& flagConsole = flagConsole from rfl]
    have hrest : (loop m (operations &&& ~~~flagFile) : Code Empty Logs Unit) =
        writes (if operations &&& flagConsole ≠ 0 then pieces .console m else []) := by
      rw [loop_of_console hclear, hkeep]
    have hzero : operations ≠ 0 := by
      rintro rfl
      exact hfile UInt32.zero_and
    rw [loop, if_neg hzero, if_pos hfile, hrest, script]
    cases hopens : m.opens with
    | false => simp
    | true =>
      have hboth : operations &&& flagFile ≠ 0 ∧ true = true := ⟨hfile, rfl⟩
      rw [if_pos hboth, writes_append, ← printRecord_eq_writes]
      rfl

/-- What a message leaves in an output. -/
def printed (flags : UInt32) (k : Output) (m : Message ι) : Bytes :=
  match k with
  | .file => if flags &&& flagFile ≠ 0 ∧ m.opens = true then record m else []
  | .console => if flags &&& flagConsole ≠ 0 then record m else []

theorem record_script (flags : UInt32) (m : Message ι) (k : Output) :
    AppendLog.record (script flags m) k = printed flags k m := by
  have hpieces : ∀ k', AppendLog.record (pieces k' m) k = if k' = k then record m else [] := by
    intro k'
    simp only [pieces, record_cons, record_nil, record]
    by_cases h : k' = k <;> simp [h]
  rw [script, record_append]
  cases k with
  | file =>
    by_cases hfile : flags &&& flagFile ≠ 0 ∧ m.opens = true <;>
      by_cases hconsole : flags &&& flagConsole ≠ 0 <;> simp [hfile, hconsole, hpieces, printed]
  | console =>
    by_cases hfile : flags &&& flagFile ≠ 0 ∧ m.opens = true <;>
      by_cases hconsole : flags &&& flagConsole ≠ 0 <;> simp [hfile, hconsole, hpieces, printed]

/-- **Records are not torn.**  At any moment of any interleaving of any threads that call
`message`, the file and the console hold what they held before, then the whole records of
the messages that are through, in the same order in both; after which there is nothing more
while the mutex is free, and the beginning of the record of the message that its holder is
inside while it is not: what the first few prints of that message come to.  A record is
missing from the file if the file could not be opened for it. -/
theorem records_stay_whole [DecidableEq ι] (flags : UInt32) (logs : Output → Bytes)
    {schedule : List (Threads.Action ι (Message ι))}
    {c : Threads.Config ι (Output → Bytes) Unit Empty (Message ι)}
    {os : List (Option (Message ι × Unit))}
    (hrun : (threads ι flags).interleaved.run (Threads.start (logs, fun _ => ())) schedule =
      some (c, os)) :
    ∃ part : Output → Bytes,
      (∀ k, c.shared k =
        logs k ++ (os.reduceOption.flatMap fun x => printed flags k x.1) ++ part k) ∧
      (c.holder = none → ∀ k, part k = []) ∧
      ∀ i, c.holder = some i → ∃ m entry rest, c.phase i = .inside m entry rest ∧
        (∃ n, ∀ k, part k = AppendLog.record ((script flags m).take n) k) ∧
        ∀ k, part k <+: printed flags k m := by
  have hbody : ∀ m, (threads ι flags).body m = writes (script flags m) :=
    fun m => loop_eq_writes m flags
  obtain ⟨part, hlogs, hfree, hheld⟩ := logs_of_run hbody hrun
  simp only [record_script] at hlogs
  refine ⟨part, hlogs, hfree, fun i hi => ?_⟩
  obtain ⟨m, entry, rest, hphase, n, hpart⟩ := hheld i hi
  refine ⟨m, entry, rest, hphase, ⟨n, hpart⟩, fun k => ?_⟩
  rw [hpart, ← record_script]
  exact record_take_isPrefix _ n k

/-- A short message of a thread. -/
def greeting (thread : Bool) : Message Bool where
  thread := thread
  file := bytes "trace.cpp"
  line := 7
  date := bytes "now"
  text := bytes "hello"
  opens := true

/-- Two threads have a message; one of them is through, and the other in the middle. -/
def twoMessages : List (Threads.Action Bool (Message Bool)) :=
  [.arrive (greeting false), .arrive (greeting true), .lock true] ++ List.replicate 6 (.act true) ++
    [.unlock true, .lock false, .act false]

theorem records_stay_whole_two : ∃ c os,
    (threads Bool 3).interleaved.run (Threads.start (fun _ => [], fun _ => ()))
      twoMessages = some (c, os) ∧
    ∃ part : Output → Bytes, ∀ k, c.shared k =
      [] ++ (os.reduceOption.flatMap fun x => printed 3 k x.1) ++ part k := by
  have hbody : threads Bool 3 =
      { threads Bool 3 with body := fun m => writes (script 3 m) } := by
    simp only [threads, loop_eq_writes]
  have hrun : ((threads Bool 3).interleaved.run
      (Threads.start (fun _ => [], fun _ => ())) twoMessages).isSome = true := by
    rw [hbody]
    decide +kernel
  obtain ⟨⟨c, os⟩, hrun⟩ := Option.isSome_iff_exists.mp hrun
  obtain ⟨part, hpart, -⟩ := records_stay_whole 3 (fun _ => []) hrun
  exact ⟨c, os, hrun, part, hpart⟩

end BafangEmulator.TraceLog
