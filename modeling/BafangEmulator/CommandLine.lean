/-
  CommandLine.lean --- Source.cpp: `main` and its arguments.

  `main` gathers the paths from the options, and then either prints something and
  returns or goes on to load the profiles and to open the ports.  What the trace
  prints is left out.

  `readArgs` says what a list of arguments comes to, without the variables of getopt.c.
  `main` does just that, and never runs into undefined behaviour (`main_eq`); and it goes
  on for those command lines only that spell the settings it goes on with
  (`main_starts_iff`).
-/
import BafangEmulator.GetOpt

set_option autoImplicit false

namespace BafangEmulator

open Foundation
open GetOpt

/-- What the options say. -/
structure Settings where
  ports : List Bytes
  general : Bytes
  config : Bytes
  deriving DecidableEq

/-- How `main` is through with its arguments. -/
inductive Ending where
  /-- It printed a text and returned. -/
  | exit (code : Nat) (stdout : Bytes)
  /-- It goes on to load the profiles. -/
  | start (settings : Settings)
  deriving DecidableEq

namespace CommandLine

/-- `usage`. -/
def usage : Bytes :=
  bytes "Usage: BafangEmulator -p PORT -g PATH -c PATH\r\n\r\n" ++
  bytes "Bafang controller emulator, currently only supporting the configuration tool.\r\n\r\n" ++
  bytes "  -p, --port <ARG>    comms port to connect to, typically COM1...\n" ++
  bytes "      --port2 <ARG>   second comms port to connect to, typically COM1...\n" ++
  bytes "      --port3 <ARG>   third comms port to connect to, typically COM1...\n" ++
  bytes "      --port4 <ARG>   fourth comms port to connect to, typically COM1...\n" ++
  bytes "  -g, --general <ARG> path for the general profile\n" ++
  bytes "  -c, --config <ARG>  path of the config profile\n" ++
  bytes "  -h, --help          display this help and exit\n" ++
  bytes "  -V, --version       output version information and exit\r\n\r\n"

/-- `version`. -/
def version : Bytes := bytes "BafangEmulator 1.0.0\r\n"

/-- The letters of the options. -/
def shortOptions : Bytes := bytes "p:g:c:hV"

/-- `long_options`. -/
def longOptions : List LongOption :=
  [⟨bytes "port", .required, 0x70⟩, ⟨bytes "port2", .required, 2⟩,
    ⟨bytes "port3", .required, 3⟩, ⟨bytes "port4", .required, 4⟩,
    ⟨bytes "general", .required, 0x67⟩, ⟨bytes "config", .required, 0x63⟩,
    ⟨bytes "help", .no, 0x68⟩, ⟨bytes "version", .no, 0x56⟩]

/-- The `switch` on an option: the settings to go on with, or how `main` returns.  There is
no string of a null pointer. -/
def switch (c : Int) (optarg : Option Bytes) (s : Settings) : Option (Ending ⊕ Settings) :=
  if c = 0x70 ∨ c = 2 ∨ c = 3 ∨ c = 4 then
    optarg.map fun arg => .inr { s with ports := s.ports ++ [arg] }
  else if c = 0x67 then optarg.map fun arg => .inr { s with general := arg }
  else if c = 0x63 then optarg.map fun arg => .inr { s with config := arg }
  else if c = 0x56 then some (.inl (.exit 0 version))
  else if c = 0x68 ∨ c = 0 ∨ c = 0x3A ∨ c = 0x3F then some (.inl (.exit 0 usage))
  else some (.inr s)

/-- The paths that `main` cannot do without. -/
def Complete (s : Settings) : Prop := s.ports ≠ [] ∧ s.general ≠ [] ∧ s.config ≠ []

instance (s : Settings) : Decidable (Complete s) := inferInstanceAs (Decidable (_ ∧ _ ∧ _))

/-- `main` after the options. -/
def conclude (s : Settings) : Ending := if Complete s then .start s else .exit 1 usage

/-- The loop over the options, for `n` turns at most. -/
def options (argv : List Bytes) : Nat → Settings → GetOpt.State → Option (Ending × GetOpt.State)
  | 0, _, _ => none
  | n + 1, s, st =>
    match getoptLong argv shortOptions longOptions st with
    | none => none
    | some (c, st) =>
      if c < 0 then some (conclude s, st)
      else
        match switch c st.optarg s with
        | none => none
        | some (.inl ending) => some (ending, st)
        | some (.inr s) => options argv n s st

def noSettings : Settings where
  ports := []
  general := []
  config := []

/-- `main` up to the loading of the profiles, and what was printed to `stderr`. -/
def main (argv : List Bytes) : Option (Ending × Bytes) :=
  (options argv (argv.length + 1) noSettings .initial).map fun (ending, st) => (ending, st.stderr)

/-! ## Command lines without pointers -/

/-- The options of `main` as tables. -/
def tables : Tables where
  options := shortOptions
  longOptions := longOptions
  loud := by decide +kernel
  ascii := by decide +kernel
  dash_notMem := by decide +kernel
  not_optional := by decide +kernel
  val_nonneg := by decide +kernel

/-- An option with its argument: its value, and the argument. -/
abbrev Setting : Type := Int × Bytes

/-- What an option with its argument sets. -/
def set (s : Settings) (x : Setting) : Settings :=
  if x.1 = 0x67 then { s with general := x.2 }
  else if x.1 = 0x63 then { s with config := x.2 }
  else { s with ports := s.ports ++ [x.2] }

/-- What arguments come to, and what is printed to `stderr` about them. -/
def readArgs (prog : Bytes) (args : List Bytes) (s : Settings) : Ending × Bytes :=
  match h : nextItem tables prog args with
  | .stop => (conclude s, [])
  | .flag val => (.exit 0 (if val = 0x56 then version else usage), [])
  | .bad _ message => (.exit 0 usage, message)
  | .setting val value rest =>
    have := length_rest_lt h
    readArgs prog rest (set s (val, value))
termination_by args.length

section Equations

variable {prog : Bytes} {args : List Bytes} {s : Settings}

theorem readArgs_stop (h : nextItem tables prog args = .stop) :
    readArgs prog args s = (conclude s, []) := by
  rw [readArgs]
  split <;> simp_all

theorem readArgs_flag {val : Int} (h : nextItem tables prog args = .flag val) :
    readArgs prog args s = (.exit 0 (if val = 0x56 then version else usage), []) := by
  rw [readArgs]
  split <;> simp_all

theorem readArgs_bad {code : Int} {text : Bytes} (h : nextItem tables prog args = .bad code text) :
    readArgs prog args s = (.exit 0 usage, text) := by
  rw [readArgs]
  split <;> simp_all

theorem readArgs_setting {val : Int} {value : Bytes} {rest : List Bytes}
    (h : nextItem tables prog args = .setting val value rest) :
    readArgs prog args s = readArgs prog rest (set s (val, value)) := by
  rw [readArgs]
  split <;> simp_all

end Equations

/-! ## The options there are -/

theorem eq_of_takesArgument : ∀ {c : UInt8}, TakesArgument tables c →
    c = 0x70 ∨ c = 0x67 ∨ c = 0x63 := by
  rintro c ⟨hcolon, oli, hfound, hargument⟩
  have hmem : c ∈ shortOptions := by
    by_cases hc : c = 0
    · subst hc
      obtain rfl : oli = [] := (Option.some.inj hfound).symm
      simp at hargument
    · exact mem_of_strchr hc hfound
  have hall : ∀ c ∈ shortOptions, c ≠ colon →
      (c = 0x70 ∨ c = 0x67 ∨ c = 0x63) ∨
        (strchr shortOptions c).map (fun oli => (oli.drop 1).head?) ≠ some (some colon) := by
    decide +kernel
  rcases hall c hmem hcolon with hval | hnone
  · exact hval
  · have heq : strchr shortOptions c = some oli := hfound
    rw [heq, Option.map_some, hargument] at hnone
    exact absurd rfl hnone

/-- What is read as an option with its argument is handled as one. -/
theorem switch_setting {prog value : Bytes} {val : Int} {args rest : List Bytes}
    (h : nextItem tables prog args = .setting val value rest) (s : Settings) :
    ¬ val < 0 ∧ switch val (some value) s = some (.inr (set s (val, value))) := by
  obtain ⟨front, hspells, -⟩ := (nextItem_eq_setting_iff args).mp h
  have hlong : ∀ o ∈ longOptions, o.hasArg = .required →
      o.val = 0x70 ∨ o.val = 0x67 ∨ o.val = 0x63 ∨ o.val = 2 ∨ o.val = 3 ∨ o.val = 4 := by
    decide +kernel
  have hval : val = 0x70 ∨ val = 0x67 ∨ val = 0x63 ∨ val = 2 ∨ val = 3 ∨ val = 4 := by
    have hshort : ∀ {c : UInt8}, TakesArgument tables c →
        toInt c = 0x70 ∨ toInt c = 0x67 ∨ toInt c = 0x63 ∨ toInt c = 2 ∨ toInt c = 3 ∨
          toInt c = 4 := by
      intro c hc
      rcases eq_of_takesArgument hc with rfl | rfl | rfl <;> decide
    cases hspells with
    | attached hc _ => exact hshort hc
    | apart hc => exact hshort hc
    | equal _ ho hkind => exact hlong _ (mem_of_lookup ho) hkind
    | next _ _ ho hkind => exact hlong _ (mem_of_lookup ho) hkind
  rcases hval with rfl | rfl | rfl | rfl | rfl | rfl <;> exact ⟨by decide, rfl⟩

/-- What is read as an option without an argument is handled as one. -/
theorem switch_flag {prog : Bytes} {val : Int} {args : List Bytes}
    (hnul : ∀ s ∈ args, (0 : UInt8) ∉ s) (h : nextItem tables prog args = .flag val)
    (optarg : Option Bytes) (s : Settings) :
    ¬ val < 0 ∧
      switch val optarg s = some (.inl (.exit 0 (if val = 0x56 then version else usage))) := by
  have hval : val = 0x68 ∨ val = 0x56 := by
    rcases exists_of_flag h with
      ⟨c, hcolon, ⟨arg, harg, hc⟩, rfl, oli, hfound, hargument⟩ | ⟨o, ho, hkind, rfl⟩
    · have hmem : c ∈ shortOptions := by
        refine mem_of_strchr ?_ hfound
        rintro rfl
        exact hnul arg harg hc
      have hall : ∀ c ∈ shortOptions, c ≠ colon →
          (toInt c = 0x68 ∨ toInt c = 0x56) ∨
            (strchr shortOptions c).map (fun oli => (oli.drop 1).head?) = some (some colon) := by
        decide +kernel
      have heq : strchr shortOptions c = some oli := hfound
      rcases hall c hmem hcolon with hval | htakes
      · exact hval
      · rw [heq, Option.map_some, Option.some.injEq] at htakes
        exact absurd htakes hargument
    · have hall : ∀ o ∈ longOptions, o.hasArg = .no → o.val = 0x68 ∨ o.val = 0x56 := by
        decide +kernel
      exact hall o ho hkind
  rcases hval with rfl | rfl <;> exact ⟨by decide, rfl⟩

/-! ## What main does -/

/-- The loop comes to what the arguments come to. -/
theorem options_run (argv : ArgVector) {nargv0 : Bytes}
    (hargv : argv.strings.head? = some nargv0) : ∀ (n : Nat) {rest : List Bytes} (s : Settings)
    {st : GetOpt.State}, Between argv.strings rest st → rest.length < n →
      ∃ st', options argv.strings n s st = some ((readArgs (progname nargv0) rest s).1, st') ∧
        st'.stderr = st.stderr ++ (readArgs (progname nargv0) rest s).2 := by
  intro n
  induction n with
  | zero => intro rest s st _ hlt; exact absurd hlt (Nat.not_lt_zero _)
  | succ n ih =>
    intro rest s st hbetween hlt
    have hnul : ∀ arg ∈ rest, (0 : UInt8) ∉ arg := by
      intro arg harg
      rw [← hbetween.drop_eq] at harg
      exact argv.nul_notMem arg (List.mem_of_mem_drop harg)
    obtain ⟨val, st', hcall, hreturns⟩ := getoptLong_run tables argv hargv hbetween
    have hcall' : getoptLong argv.strings shortOptions longOptions st = some (val, st') := hcall
    rw [options, hcall']
    simp only
    cases hitem : nextItem tables (progname nargv0) rest with
    | stop =>
      rw [hitem] at hreturns
      rw [readArgs_stop hitem, List.append_nil]
      cases hreturns with
      | stop h => exact ⟨st', rfl, h⟩
    | flag code =>
      rw [hitem] at hreturns
      rw [readArgs_flag hitem, List.append_nil]
      cases hreturns with
      | flag h =>
        obtain ⟨hval, hswitch⟩ := switch_flag hnul hitem st'.optarg s
        exact ⟨st', by rw [if_neg hval, hswitch], h⟩
    | bad code text =>
      rw [hitem] at hreturns
      rw [readArgs_bad hitem]
      cases hreturns with
      | bad h =>
        refine ⟨st', ?_, h⟩
        rcases code_of_bad hitem with rfl | rfl <;> rfl
    | setting code value rest' =>
      rw [hitem] at hreturns
      rw [readArgs_setting hitem]
      cases hreturns with
      | setting hvalue hbetween' h =>
        obtain ⟨hval, hswitch⟩ := switch_setting hitem s
        have hlt' := length_rest_lt hitem
        obtain ⟨st'', hrun, hstderr⟩ := ih (set s (val, value)) hbetween' (by omega)
        exact ⟨st'', by rw [if_neg hval, hvalue, hswitch, ← hrun], by rw [hstderr, h]⟩

/-- What a command line comes to. -/
def understand (argv : List Bytes) : Ending × Bytes :=
  readArgs (progname (argv.headD [])) argv.tail noSettings

/-- The loop over the options comes to what the arguments do. -/
theorem options_eq (argv : ArgVector) : ∃ st,
    options argv.strings (argv.strings.length + 1) noSettings .initial =
        some ((understand argv.strings).1, st) ∧
      st.stderr = (understand argv.strings).2 := by
  cases hargv : argv.strings with
  | nil =>
    have hstop : readArgs (progname []) [] noSettings = (conclude noSettings, []) :=
      readArgs_stop rfl
    rw [understand, List.headD_nil, List.tail_nil, hstop]
    exact ⟨_, rfl, rfl⟩
  | cons nargv0 args =>
    have hbetween : Between argv.strings args .initial :=
      ⟨rfl, rfl, rfl, by rw [hargv]; simp [GetOpt.State.initial], by rw [hargv]; rfl⟩
    have hhead : argv.strings.head? = some nargv0 := by rw [hargv]; rfl
    obtain ⟨st, hrun, hstderr⟩ := options_run argv hhead
      (argv.strings.length + 1) noSettings hbetween (by rw [hargv, List.length_cons]; omega)
    rw [hargv] at hrun
    exact ⟨st, hrun, hstderr⟩

/-- **main is through with any arguments**, however many there are and whatever they say: the
loop over the options ends, nothing is read that is not there, no null pointer is made a
string, and what is printed, the trace apart, and what `main` goes on with are what the
arguments come to. -/
theorem main_eq (argv : ArgVector) : main argv.strings = some (understand argv.strings) := by
  obtain ⟨st, hrun, hstderr⟩ := options_eq argv
  simp only [main, hrun, Option.map_some, hstderr]

/-! ## The command lines that start the emulator -/

/-- Options with their arguments, one after the other. -/
def Spelled : List Setting → List (List Bytes) → Prop :=
  List.Forall₂ fun x front => Spells tables x.1 x.2 front

/-- What is read at the front of spelled options. -/
theorem nextItem_of_spelled (prog : Bytes) {xs : List Setting} {fronts : List (List Bytes)}
    {rest : List Bytes} (h : Spelled xs fronts) (hrest : Ends rest) :
    match xs with
    | [] => nextItem tables prog (fronts.flatten ++ rest) = .stop
    | x :: xs => ∃ fronts', Spelled xs fronts' ∧
        nextItem tables prog (fronts.flatten ++ rest) =
          .setting x.1 x.2 (fronts'.flatten ++ rest) := by
  cases h with
  | nil => exact (nextItem_eq_stop_iff rest).mpr hrest
  | cons hx hxs =>
    refine ⟨_, hxs, (nextItem_eq_setting_iff _).mpr ⟨_, hx, ?_⟩⟩
    rw [List.flatten_cons, List.append_assoc]

/-- **Spelled options come to what they spell.** -/
theorem readArgs_of_spelled {prog : Bytes} {rest : List Bytes} (hrest : Ends rest) :
    ∀ {xs : List Setting} {fronts : List (List Bytes)} (s : Settings), Spelled xs fronts →
      readArgs prog (fronts.flatten ++ rest) s = (conclude (xs.foldl set s), []) := by
  intro xs
  induction xs with
  | nil => exact fun s h => readArgs_stop (nextItem_of_spelled prog h hrest)
  | cons x xs ih =>
    intro fronts s h
    obtain ⟨fronts', hxs, hitem⟩ := nextItem_of_spelled prog h hrest
    rw [readArgs_setting hitem]
    exact ih (set s x) hxs

/-- Arguments that come to a start spell what it starts with. -/
theorem spelled_of_readArgs {prog : Bytes} {s' : Settings} {err : Bytes} :
    ∀ {args : List Bytes} {s : Settings}, readArgs prog args s = (.start s', err) →
      err = [] ∧ ∃ xs fronts rest, Spelled xs fronts ∧ args = fronts.flatten ++ rest ∧ Ends rest ∧
        xs.foldl set s = s' ∧ Complete s' := by
  intro args
  induction hlength : args.length using Nat.strong_induction_on generalizing args with
  | _ n ih =>
    intro s h
    cases hitem : nextItem tables prog args with
    | stop =>
      rw [readArgs_stop hitem, conclude, Prod.mk.injEq] at h
      obtain ⟨hconclude, rfl⟩ := h
      split at hconclude
      · rename_i hcomplete
        obtain rfl : s = s' := by simpa using hconclude
        exact ⟨rfl, [], [], args, .nil, rfl, (nextItem_eq_stop_iff args).mp hitem, rfl, hcomplete⟩
      · simp at hconclude
    | flag val =>
      rw [readArgs_flag hitem] at h
      simp at h
    | bad code text =>
      rw [readArgs_bad hitem] at h
      simp at h
    | setting val value args' =>
      rw [readArgs_setting hitem] at h
      obtain ⟨front, hspells, rfl⟩ := (nextItem_eq_setting_iff args).mp hitem
      obtain ⟨herr, xs, fronts, rest, hspelled, rfl, hrest, hset, hcomplete⟩ :=
        ih args'.length (hlength ▸ length_rest_lt hitem) rfl h
      refine ⟨herr, (val, value) :: xs, front :: fronts, rest, .cons hspells hspelled, ?_, hrest,
        hset, hcomplete⟩
      rw [List.flatten_cons, List.append_assoc]

/-- **The command lines that start the emulator** are those that spell the settings it
starts with: any options with their arguments, up to the end of the options.  Each is given
by its letter, by its name, or by a text that is no name but that a name starts with, and
then it is the first such name.  Ports add up in their order, and of the paths the last one
counts.  There is a port, and no path is empty. -/
theorem main_starts_iff (argv : ArgVector) (s : Settings) (err : Bytes) :
    main argv.strings = some (.start s, err) ↔
      err = [] ∧ ∃ xs fronts rest, Spelled xs fronts ∧
        argv.strings.tail = fronts.flatten ++ rest ∧ Ends rest ∧
        xs.foldl set noSettings = s ∧ Complete s := by
  obtain ⟨st, hrun, hstderr⟩ := options_eq argv
  simp only [main, hrun, Option.map_some, hstderr, Option.some.injEq]
  rw [understand]
  constructor
  · exact spelled_of_readArgs
  · rintro ⟨rfl, xs, fronts, rest, hspelled, hargs, hrest, rfl, hcomplete⟩
    rw [hargs, readArgs_of_spelled hrest noSettings hspelled, conclude, if_pos hcomplete]

example : main [bytes "emulator", bytes "-pCOM1", bytes "--gen=a", bytes "--conf", bytes "b"] =
    some (.start ⟨[bytes "COM1"], bytes "a", bytes "b"⟩, []) := by decide +kernel

end CommandLine

end BafangEmulator
