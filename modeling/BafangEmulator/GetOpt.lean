/-
  GetOpt.lean --- getopt.c: `getopt` and `getopt_long`.

  The functions keep a pointer into the argument they are reading (`place`) and the
  index of the next one (`optind`) between calls.  A pointer into a C string is the
  rest of the string from there; `NULL` is `none`.  Where the code would read past the
  end of a string or of `argv`, or an assertion would fail, there is no result.

  `nextItem` says what is at the front of some arguments without any pointers, for
  option tables in which the options without an argument end the reading.  The calls
  follow it (`getoptLong_run`).
-/
import BafangEmulator.Foundation.Bytes

set_option autoImplicit false

namespace BafangEmulator

open Foundation

/-- `argv`: C strings, without their terminating NULs. -/
structure ArgVector where
  strings : List Bytes
  nul_notMem : ∀ s ∈ strings, (0 : UInt8) ∉ s

namespace GetOpt

/-! ## Global variables -/

/-- The global variables of getopt.c and what was printed to `stderr`. -/
structure State where
  opterr : Bool
  optind : Nat
  optopt : Int
  optreset : Bool
  optarg : Option Bytes
  place : Bytes
  stderr : Bytes
  deriving DecidableEq

/-- The variables as they are initialised. -/
def State.initial : State where
  opterr := true
  optind := 1
  optopt := 1
  optreset := false
  optarg := none
  place := []
  stderr := []

/-- `has_arg` of an option. -/
inductive ArgKind where
  | no
  | required
  | optional
  deriving DecidableEq

/-- `struct option`, for options without a `flag`. -/
structure LongOption where
  name : Bytes
  hasArg : ArgKind
  val : Int

def dash : UInt8 := 0x2D
def colon : UInt8 := 0x3A
def slash : UInt8 := 0x2F
def equalSign : UInt8 := 0x3D

/-- `BADCH`. -/
def badch : Int := 0x3F

/-- `BADARG`. -/
def badarg : Int := 0x3A

/-- `(int)c` for a `char`, which is signed. -/
def toInt (c : UInt8) : Int := if c < 0x80 then c.toNat else (c.toNat : Int) - 256

/-- `strchr`: the string from the first `c` on.  The terminating NUL is part of the
string. -/
def strchr (s : Bytes) (c : UInt8) : Option Bytes :=
  match s.dropWhile (· != c) with
  | [] => if c = 0 then some [] else none
  | rest => some rest

/-- `__progname`: what follows the last slash. -/
def progname (nargv0 : Bytes) : Bytes := nargv0.rtakeWhile (· != slash)

/-- `fprintf(stderr, "%s: %s -- %s\n", __progname(nargv[0]), ...)`, unless messages are
turned off. -/
def report (nargv : List Bytes) (ostr text what : Bytes) (s : State) : Option State :=
  if s.opterr && ostr.head? != some colon then
    nargv.head?.map fun nargv0 => { s with
      stderr := s.stderr ++ (progname nargv0 ++ bytes ": " ++ text ++ bytes " -- " ++ what ++
        bytes "\n") }
  else some s

/-! ## getopt -/

/-- The update of the scanning pointer: a result, or where to read on. -/
def scan (nargv : List Bytes) (s : State) : Except (Int × State) State :=
  if s.optreset || s.place.isEmpty then
    let s := { s with optreset := false }
    match nargv[s.optind]? with
    | none => .error (-1, { s with place := [] })
    | some arg =>
      if arg.head? ≠ some dash then .error (-1, { s with place := [] })
      else
        match arg with
        | _ :: c :: rest =>
          if c = dash then .error (-2, { s with place := [] })
          else .ok { s with place := c :: rest }
        | _ => .ok { s with place := arg }
  else .ok s

/-- The option at the scanning pointer. -/
def letter (nargv : List Bytes) (ostr : Bytes) (s : State) : Option (Int × State) :=
  match s.place with
  | [] => none
  | c :: rest =>
    let s := { s with optopt := toInt c, place := rest }
    match (if c = colon then none else strchr ostr c) with
    | none =>
      if c = dash then some (-1, s)
      else
        let s := if rest.isEmpty then { s with optind := s.optind + 1 } else s
        (report nargv ostr (bytes "illegal option") [c] s).map fun s => (badch, s)
    | some oli =>
      if (oli.drop 1).head? ≠ some colon then
        let s := { s with optarg := none }
        some (toInt c, if rest.isEmpty then { s with optind := s.optind + 1 } else s)
      else if !rest.isEmpty then
        some (toInt c, { s with optarg := some rest, place := [], optind := s.optind + 1 })
      else
        match nargv[s.optind + 1]? with
        | none =>
          let s := { s with optind := s.optind + 1, place := [] }
          (report nargv ostr (bytes "option requires an argument") [c] s).map fun s => (badarg, s)
        | some arg =>
          some (toInt c, { s with optarg := some arg, place := [], optind := s.optind + 2 })

/-- `getopt`. -/
def getopt (nargv : List Bytes) (ostr : Bytes) (s : State) : Option (Int × State) :=
  match scan nargv s with
  | .error result => some result
  | .ok s => letter nargv ostr s

/-! ## getopt_long -/

/-- The loop over the long options: an exact match, or else the first one that the name
is the front of. -/
def findLong (name : Bytes) : List LongOption → Option LongOption → Option LongOption
  | [], found => found
  | o :: os, found =>
    if name.isPrefixOf o.name then
      if o.name.length = name.length then some o else findLong name os (found.or (some o))
    else findLong name os found

/-- `current_argv` up to the first equal sign, and what follows it. -/
def splitEqual (current : Bytes) : Bytes × Option Bytes :=
  match current.findIdx? (· == equalSign) with
  | some i => (current.take i, some (current.drop (i + 1)))
  | none => (current, none)

/-- The argument of a long option. -/
def longArgument (nargv : List Bytes) (hasEqual : Option Bytes) (o : LongOption) (s : State) :
    Option State :=
  if o.hasArg = .required ∨ o.hasArg = .optional then
    match hasEqual with
    | some value => some { s with optarg := some value }
    | none =>
      if s.optind ≤ nargv.length then
        some { s with optarg := nargv[s.optind]?, optind := s.optind + 1 }
      else none
  else some s

/-- `getopt_long` once `getopt` has found `--`. -/
def long (nargv : List Bytes) (options : Bytes) (longOptions : List LongOption) (s : State) :
    Option (Int × State) :=
  match nargv[s.optind]? with
  | none => none
  | some arg =>
    if arg.length < 2 then none
    else
      let current := arg.drop 2
      let s := { s with optind := s.optind + 1 }
      if current = [] then some (-1, s)
      else
        match findLong (splitEqual current).1 longOptions none with
        | none =>
          (report nargv options (bytes "illegal option") current s).map fun s => (badch, s)
        | some o =>
          match longArgument nargv (splitEqual current).2 o s with
          | none => none
          | some s =>
            if o.hasArg = .required ∧ s.optarg = none then
              (report nargv options (bytes "option requires an argument") current s).map
                fun s => (badarg, s)
            else some (o.val, s)

/-- `getopt_long`. -/
def getoptLong (nargv : List Bytes) (options : Bytes) (longOptions : List LongOption) (s : State) :
    Option (Int × State) :=
  match getopt nargv options s with
  | none => none
  | some (retval, s) =>
    if retval = -2 then long nargv options longOptions s else some (retval, s)

/-! ## Arguments without pointers -/

/-- The option tables of a program, as `getopt_long` can follow them: messages are wanted,
the letters are ASCII, a dash is none of them, no argument is optional, and no value is
negative. -/
structure Tables where
  options : Bytes
  longOptions : List LongOption
  loud : options.head? ≠ some colon
  ascii : ∀ c ∈ options, c < 0x80
  dash_notMem : dash ∉ options
  not_optional : ∀ o ∈ longOptions, o.hasArg ≠ .optional
  val_nonneg : ∀ o ∈ longOptions, 0 ≤ o.val

/-- What is at the front of some arguments. -/
inductive Item where
  /-- The options end here. -/
  | stop
  /-- An option without an argument. -/
  | flag (val : Int)
  /-- An option with its argument, and what follows them. -/
  | setting (val : Int) (value : Bytes) (rest : List Bytes)
  /-- No option, or one whose argument is missing, and the message about it. -/
  | bad (code : Int) (message : Bytes)
  deriving DecidableEq

/-- A message of `getopt` or `getopt_long`. -/
def message (prog : Bytes) (text : String) (what : Bytes) : Bytes :=
  prog ++ bytes ": " ++ bytes text ++ bytes " -- " ++ what ++ bytes "\n"

/-- The long option of a name: the one with that very name, or else the first one that the
name is the front of. -/
def lookup (name : Bytes) (os : List LongOption) : Option LongOption :=
  (os.find? fun o => o.name = name).or (os.find? fun o => name.isPrefixOf o.name)

/-- A letter, the rest of its argument, and the arguments that follow. -/
def shortItem (T : Tables) (prog : Bytes) (c : UInt8) (tail : Bytes) (rest : List Bytes) : Item :=
  match (if c = colon then none else strchr T.options c) with
  | none => .bad badch (message prog "illegal option" [c])
  | some oli =>
    if (oli.drop 1).head? ≠ some colon then .flag (toInt c)
    else
      match tail, rest with
      | _ :: _, rest => .setting (toInt c) tail rest
      | [], arg :: rest => .setting (toInt c) arg rest
      | [], [] => .bad badarg (message prog "option requires an argument" [c])

/-- What follows two dashes, and the arguments that follow. -/
def longItem (T : Tables) (prog current : Bytes) (rest : List Bytes) : Item :=
  match lookup (splitEqual current).1 T.longOptions with
  | none => .bad badch (message prog "illegal option" current)
  | some o =>
    if o.hasArg = .no then .flag o.val
    else
      match (splitEqual current).2, rest with
      | some value, rest => .setting o.val value rest
      | none, arg :: rest => .setting o.val arg rest
      | none, [] => .bad badarg (message prog "option requires an argument" current)

/-- What is at the front of the arguments. -/
def nextItem (T : Tables) (prog : Bytes) : List Bytes → Item
  | [] => .stop
  | arg :: rest =>
    match arg with
    | [] => .stop
    | [_] => .stop
    | a :: c :: tail =>
      if a ≠ dash then .stop
      else if c ≠ dash then shortItem T prog c tail rest
      else if tail = [] then .stop
      else longItem T prog tail rest

/-! ## The loop over the long options -/

/-- A match found earlier counts unless there is an exact one. -/
theorem findLong_eq (name : Bytes) : ∀ (os : List LongOption) (found : Option LongOption),
    findLong name os found =
      (os.find? fun o => o.name = name).or
        (found.or (os.find? fun o => name.isPrefixOf o.name)) := by
  intro os
  induction os with
  | nil => intro found; simp [findLong]
  | cons o os ih =>
    intro found
    rw [findLong, List.find?_cons, List.find?_cons]
    cases hpre : name.isPrefixOf o.name with
    | false =>
      have hne : o.name ≠ name := by
        rintro rfl
        have hself := List.isPrefixOf_iff_prefix.mpr (List.prefix_refl o.name)
        rw [hpre] at hself
        simp at hself
      simp [ih, hne]
    | true =>
      rw [if_pos rfl]
      by_cases hlength : o.name.length = name.length
      · have heq : o.name = name :=
          ((List.isPrefixOf_iff_prefix.mp hpre).eq_of_length hlength.symm).symm
        simp [heq]
      · have hne : o.name ≠ name := fun heq => hlength (congrArg List.length heq)
        rw [if_neg hlength, ih]
        cases found with
        | none => simp [hne]
        | some o' => simp [hne]

theorem findLong_none (name : Bytes) (os : List LongOption) :
    findLong name os none = lookup name os := by
  rw [findLong_eq, lookup, Option.none_or]

theorem mem_of_lookup {name : Bytes} {os : List LongOption} {o : LongOption}
    (h : lookup name os = some o) : o ∈ os := by
  rcases Option.or_eq_some_iff.mp h with hfound | ⟨-, hfound⟩
  · exact List.mem_of_find?_eq_some hfound
  · exact List.mem_of_find?_eq_some hfound

/-! ## One call -/

/-- The variables between two calls, with `rest` still to be read. -/
structure Between (nargv : List Bytes) (rest : List Bytes) (s : State) : Prop where
  opterr_eq : s.opterr = true
  optreset_eq : s.optreset = false
  place_eq : s.place = []
  optind_le : s.optind ≤ nargv.length
  drop_eq : nargv.drop s.optind = rest

/-- A call has returned what the item calls for. -/
inductive Returns (nargv : List Bytes) (s : State) : Item → Int → State → Prop where
  | stop {s' : State} (h : s'.stderr = s.stderr) : Returns nargv s .stop (-1) s'
  | flag {val : Int} {s' : State} (h : s'.stderr = s.stderr) : Returns nargv s (.flag val) val s'
  | setting {val : Int} {value : Bytes} {rest : List Bytes} {s' : State}
      (hvalue : s'.optarg = some value) (hbetween : Between nargv rest s')
      (h : s'.stderr = s.stderr) : Returns nargv s (.setting val value rest) val s'
  | bad {code : Int} {message : Bytes} {s' : State} (h : s'.stderr = s.stderr ++ message) :
      Returns nargv s (.bad code message) code s'

/-- Only what was printed before matters. -/
theorem Returns.congr {nargv : List Bytes} {s₁ s s' : State} {item : Item} {val : Int}
    (h : Returns nargv s₁ item val s') (hstderr : s₁.stderr = s.stderr) :
    Returns nargv s item val s' := by
  cases h with
  | stop h => exact .stop (h.trans hstderr)
  | flag h => exact .flag (h.trans hstderr)
  | setting hvalue hbetween h => exact .setting hvalue hbetween (h.trans hstderr)
  | bad h => exact .bad (hstderr ▸ h)

section Calls

variable {T : Tables} {nargv : List Bytes} {nargv0 : Bytes}

/-- A call that reports a fault. -/
theorem exists_report (hargv : nargv.head? = some nargv0) (code : Int) (hcode : code ≠ -2)
    {s s₁ : State} (hopterr : s₁.opterr = true) (hstderr : s₁.stderr = s.stderr) (text : String)
    (what : Bytes) :
    ∃ val s', (report nargv T.options (bytes text) what s₁).map (fun s => (code, s)) =
        some (val, s') ∧ val ≠ -2 ∧
      Returns nargv s (.bad code (message (progname nargv0) text what)) val s' := by
  have hloud : (T.options.head? != some colon) = true := by simpa using T.loud
  rw [report, hopterr, hloud, hargv]
  exact ⟨_, _, rfl, hcode, .bad (congrArg (· ++ _) hstderr)⟩

/-- What `strchr` finds starts with what it looked for, and is part of the string. -/
theorem mem_of_strchr {ostr rest : Bytes} {c : UInt8} (hc : c ≠ 0)
    (h : strchr ostr c = some rest) : c ∈ ostr := by
  unfold strchr at h
  split at h
  · rw [if_neg hc] at h
    simp at h
  · rename_i l hdrop
    by_contra hmem
    have hall : ∀ x ∈ ostr, (x != c) = true := by
      intro x hx
      rw [bne_iff_ne]
      rintro rfl
      exact hmem hx
    rw [List.dropWhile_eq_nil_iff.mpr hall] at hdrop
    exact hdrop rfl

theorem toInt_ne {c : UInt8} (h : c < 0x80) : toInt c ≠ -2 := by
  rw [toInt, if_pos h]
  omega

theorem drop_succ {k : Nat} {arg : Bytes} {rest : List Bytes} (h : nargv.drop k = arg :: rest) :
    k < nargv.length ∧ nargv[k]? = some arg ∧ nargv.drop (k + 1) = rest := by
  have hlt : k < nargv.length := by
    by_contra hge
    rw [List.drop_eq_nil_of_le (Nat.not_lt.mp hge)] at h
    simp at h
  rw [List.drop_eq_getElem_cons hlt, List.cons.injEq] at h
  exact ⟨hlt, by rw [List.getElem?_eq_getElem hlt, h.1], h.2⟩

/-- **A letter is read** as its item says. -/
theorem letter_run (hargv : nargv.head? = some nargv0) {s : State} {c : UInt8} {tail arg : Bytes}
    {rest : List Bytes} (hopterr : s.opterr = true) (hreset : s.optreset = false)
    (hplace : s.place = c :: tail) (hdrop : nargv.drop s.optind = arg :: rest)
    (hc : c ≠ 0) (hdash : c ≠ dash) :
    ∃ val s', letter nargv T.options s = some (val, s') ∧ val ≠ -2 ∧
      Returns nargv s (shortItem T (progname nargv0) c tail rest) val s' := by
  obtain ⟨hlt, -, hrest⟩ := drop_succ hdrop
  rw [letter, hplace]
  unfold shortItem
  simp only
  cases hfound : (if c = colon then none else strchr T.options c) with
  | none =>
    simp only [if_neg hdash]
    cases htail : tail.isEmpty with
    | true =>
      simp only [if_true]
      refine exists_report hargv badch (by decide) ?_ ?_ _ _
      · exact hopterr
      · rfl
    | false =>
      simp only [if_false, Bool.false_eq_true]
      refine exists_report hargv badch (by decide) ?_ ?_ _ _
      · exact hopterr
      · rfl
  | some oli =>
    have hmem : c ∈ T.options := by
      by_cases hcolon : c = colon
      · rw [if_pos hcolon] at hfound
        simp at hfound
      · rw [if_neg hcolon] at hfound
        exact mem_of_strchr hc hfound
    have hval := toInt_ne (T.ascii c hmem)
    simp only
    by_cases harg : (oli.drop 1).head? ≠ some colon
    · rw [if_pos harg, if_pos harg]
      refine ⟨_, _, rfl, hval, .flag ?_⟩
      split <;> rfl
    · rw [if_neg harg, if_neg harg]
      cases tail with
      | cons t tail =>
        exact ⟨_, _, rfl, hval, .setting rfl ⟨hopterr, hreset, rfl, hlt, hrest⟩ rfl⟩
      | nil =>
        cases rest with
        | nil =>
          have hnone : nargv[s.optind + 1]? = none := by
            rw [List.getElem?_eq_none_iff]
            exact List.drop_eq_nil_iff.mp hrest
          simp only [List.isEmpty_nil, Bool.not_true, if_false, Bool.false_eq_true, hnone]
          refine exists_report hargv badarg (by decide) ?_ ?_ _ _
          · exact hopterr
          · rfl
        | cons value rest =>
          obtain ⟨hlt', hvalue, hrest'⟩ := drop_succ hrest
          simp only [List.isEmpty_nil, Bool.not_true, if_false, Bool.false_eq_true, hvalue]
          exact ⟨_, _, rfl, hval, .setting rfl ⟨hopterr, hreset, rfl, hlt', hrest'⟩ rfl⟩

/-- **A long option is read** as its item says. -/
theorem long_run (hargv : nargv.head? = some nargv0) {s : State} {a b : UInt8} {current : Bytes}
    {rest : List Bytes} (hopterr : s.opterr = true) (hreset : s.optreset = false)
    (hplace : s.place = []) (hdrop : nargv.drop s.optind = (a :: b :: current) :: rest)
    (hcurrent : current ≠ []) :
    ∃ val s', long nargv T.options T.longOptions s = some (val, s') ∧ val ≠ -2 ∧
      Returns nargv s (longItem T (progname nargv0) current rest) val s' := by
  obtain ⟨hlt, hget, hrest⟩ := drop_succ hdrop
  have htwo : ¬ (a :: b :: current).length < 2 := by simp
  rw [long, hget, longItem]
  simp only [if_neg htwo, List.drop_succ_cons, List.drop_zero, if_neg hcurrent, findLong_none]
  cases hlookup : lookup (splitEqual current).1 T.longOptions with
  | none =>
    simp only
    refine exists_report hargv badch (by decide) ?_ ?_ _ _
    · exact hopterr
    · rfl
  | some o =>
    have hoptional := T.not_optional o (mem_of_lookup hlookup)
    have hval : o.val ≠ -2 := by
      have hnonneg := T.val_nonneg o (mem_of_lookup hlookup)
      omega
    simp only
    cases hkind : o.hasArg with
    | no =>
      have hnone : ¬ (o.hasArg = .required ∨ o.hasArg = .optional) := by rw [hkind]; decide
      simp only [longArgument, if_neg hnone]
      exact ⟨_, _, rfl, hval, .flag rfl⟩
    | optional => exact absurd hkind hoptional
    | required =>
      have hwanted : o.hasArg = .required ∨ o.hasArg = .optional := Or.inl hkind
      simp only [longArgument, if_pos hwanted]
      cases (splitEqual current).2 with
      | some value =>
        exact ⟨_, _, rfl, hval, .setting rfl ⟨hopterr, hreset, hplace, hlt, hrest⟩ rfl⟩
      | none =>
        have hle : s.optind + 1 ≤ nargv.length := hlt
        simp only [if_pos hle]
        cases rest with
        | nil =>
          have hnone : nargv[s.optind + 1]? = none := by
            rw [List.getElem?_eq_none_iff]
            exact List.drop_eq_nil_iff.mp hrest
          simp only [hnone, and_self, if_true, reduceCtorEq, if_false]
          refine exists_report hargv badarg (by decide) ?_ ?_ _ _
          · exact hopterr
          · rfl
        | cons value rest =>
          obtain ⟨hlt', hvalue, hrest'⟩ := drop_succ hrest
          simp only [hvalue]
          exact ⟨_, _, rfl, hval, .setting rfl ⟨hopterr, hreset, hplace, hlt', hrest'⟩ rfl⟩

/-- **A call of `getopt_long`** between two options returns what is at the front of the
arguments, and leaves off behind it. -/
theorem getoptLong_run (T : Tables) (argv : ArgVector)
    (hargv : argv.strings.head? = some nargv0) {s : State} {rest : List Bytes}
    (hs : Between argv.strings rest s) :
    ∃ val s', getoptLong argv.strings T.options T.longOptions s = some (val, s') ∧
      Returns argv.strings s (nextItem T (progname nargv0) rest) val s' := by
  obtain ⟨hopterr, hreset, hplace, hle, hdrop⟩ := hs
  have hscan : (s.optreset || s.place.isEmpty) = true := by rw [hplace, List.isEmpty_nil, Bool.or_true]
  have hsame : { s with optreset := false } = s := by rw [← hreset]
  rw [getoptLong, getopt, scan, hscan, if_pos rfl, hsame]
  cases rest with
  | nil =>
    have hnone : argv.strings[s.optind]? = none := by
      rw [List.getElem?_eq_none_iff]
      exact List.drop_eq_nil_iff.mp hdrop
    simp only [hnone]
    exact ⟨_, _, rfl, .stop rfl⟩
  | cons arg rest =>
    obtain ⟨hlt, hget, hrest⟩ := drop_succ hdrop
    have hnul : (0 : UInt8) ∉ arg := argv.nul_notMem arg (List.mem_of_getElem? hget)
    simp only [hget]
    cases arg with
    | nil => exact ⟨_, _, rfl, .stop rfl⟩
    | cons a tail =>
      by_cases ha : a = dash
      · subst ha
        simp only [List.head?_cons, ne_eq, not_true_eq_false, if_false]
        cases tail with
        | nil =>
          -- A dash alone is no option, and no option letter either.
          have hnone : (if dash = colon then none else strchr T.options dash) = none := by
            cases hfound : strchr T.options dash with
            | none => rfl
            | some oli => exact absurd (mem_of_strchr (by decide) hfound) T.dash_notMem
          simp only [letter, hnone, if_true]
          exact ⟨_, _, rfl, .stop rfl⟩
        | cons c tail =>
          by_cases hc : c = dash
          · subst hc
            simp only [if_true]
            by_cases htail : tail = []
            · subst htail
              simp only [long, hget]
              exact ⟨_, _, rfl, .stop rfl⟩
            · obtain ⟨val, s', hrun, -, hreturns⟩ := long_run (T := T) hargv
                (s := { s with place := [] }) hopterr hreset rfl hdrop htail
              simp only [nextItem, ne_eq, not_true_eq_false, if_false, if_neg htail]
              exact ⟨val, s', hrun, hreturns.congr rfl⟩
          · obtain ⟨val, s', hrun, hval, hreturns⟩ := letter_run (T := T) hargv
              (s := { s with place := c :: tail }) hopterr hreset rfl hdrop
              (fun h0 => hnul (by simp [h0])) hc
            simp only [nextItem, ne_eq, not_true_eq_false, if_false, if_pos hc, if_neg hc, hrun,
              if_neg hval]
            exact ⟨val, s', rfl, hreturns.congr rfl⟩
      · have hhead : (a :: tail).head? ≠ some dash := by simpa using ha
        simp only [if_pos hhead]
        cases tail with
        | nil => exact ⟨_, _, rfl, .stop rfl⟩
        | cons c tail =>
          simp only [nextItem, if_pos ha]
          exact ⟨_, _, rfl, .stop rfl⟩

end Calls

/-! ## The language of the options with an argument -/

/-- The letter is that of an option with an argument. -/
def TakesArgument (T : Tables) (c : UInt8) : Prop :=
  c ≠ colon ∧ ∃ oli, strchr T.options c = some oli ∧ (oli.drop 1).head? = some colon

/-- The ways to write an option with its argument. -/
inductive Spells (T : Tables) : Int → Bytes → List Bytes → Prop where
  /-- A letter and the argument in one. -/
  | attached {c : UInt8} {value : Bytes} (hc : TakesArgument T c) (hvalue : value ≠ []) :
      Spells T (toInt c) value [dash :: c :: value]
  /-- A letter, and then the argument. -/
  | apart {c : UInt8} {value : Bytes} (hc : TakesArgument T c) :
      Spells T (toInt c) value [[dash, c], value]
  /-- A name that finds the option, and the argument behind an equal sign. -/
  | equal {name value : Bytes} {o : LongOption} (hname : equalSign ∉ name)
      (ho : lookup name T.longOptions = some o) (hkind : o.hasArg = .required) :
      Spells T o.val value [dash :: dash :: (name ++ equalSign :: value)]
  /-- A name that finds the option, and then the argument. -/
  | next {name value : Bytes} {o : LongOption} (hname : equalSign ∉ name) (hne : name ≠ [])
      (ho : lookup name T.longOptions = some o) (hkind : o.hasArg = .required) :
      Spells T o.val value [dash :: dash :: name, value]

theorem splitEqual_append {name value : Bytes} (h : equalSign ∉ name) :
    splitEqual (name ++ equalSign :: value) = (name, some value) := by
  have hindex : (name ++ equalSign :: value).findIdx? (· == equalSign) = some name.length := by
    rw [List.findIdx?_append, List.findIdx?_eq_none_iff.mpr]
    · simp [List.findIdx?_cons]
    · intro c hc
      rw [beq_eq_false_iff_ne]
      rintro rfl
      exact h hc
  rw [splitEqual, hindex]
  simp

theorem splitEqual_of_notMem {current : Bytes} (h : equalSign ∉ current) :
    splitEqual current = (current, none) := by
  rw [splitEqual, List.findIdx?_eq_none_iff.mpr]
  intro c hc
  rw [beq_eq_false_iff_ne]
  rintro rfl
  exact h hc

/-- A string has an equal sign and splits at the first one, or it has none. -/
theorem splitEqual_cases (current : Bytes) :
    (∃ name value, equalSign ∉ name ∧ current = name ++ equalSign :: value) ∨
      equalSign ∉ current := by
  by_cases h : equalSign ∈ current
  · obtain ⟨name, value, hsplit, hname⟩ := List.eq_append_cons_of_mem h
    exact Or.inl ⟨name, value, hname, hsplit⟩
  · exact Or.inr h

section Language

variable {T : Tables} {prog : Bytes} {val : Int} {value : Bytes} {rest rest' : List Bytes}

theorem shortItem_eq_setting_iff {c : UInt8} {tail : Bytes} :
    shortItem T prog c tail rest = .setting val value rest' ↔
      TakesArgument T c ∧ toInt c = val ∧
        ((tail ≠ [] ∧ tail = value ∧ rest = rest') ∨ (tail = [] ∧ rest = value :: rest')) := by
  unfold shortItem TakesArgument
  by_cases hcolon : c = colon
  · simp [hcolon]
  · rw [if_neg hcolon]
    cases strchr T.options c with
    | none => simp
    | some oli =>
      simp only [Option.some.injEq, exists_eq_left']
      generalize (oli.drop 1).head? = follows
      by_cases harg : follows = some colon
      · cases tail with
        | cons t tail => simp [hcolon, harg]
        | nil => cases rest <;> simp [hcolon, harg]
      · simp [harg]

theorem longItem_eq_setting_iff {current : Bytes} :
    longItem T prog current rest = .setting val value rest' ↔
      ∃ o, lookup (splitEqual current).1 T.longOptions = some o ∧ o.hasArg = .required ∧
        o.val = val ∧ (((splitEqual current).2 = some value ∧ rest = rest') ∨
          ((splitEqual current).2 = none ∧ rest = value :: rest')) := by
  rw [longItem]
  cases hlookup : lookup (splitEqual current).1 T.longOptions with
  | none => simp
  | some o =>
    have hoptional := T.not_optional o (mem_of_lookup hlookup)
    cases hkind : o.hasArg with
    | no => simp [hkind]
    | optional => exact absurd hkind hoptional
    | required =>
      cases (splitEqual current).2 with
      | some v => simp [hkind]
      | none => cases rest <;> simp [hkind]

theorem dash_not_takesArgument : ¬ TakesArgument T dash := by
  rintro ⟨-, oli, hfound, -⟩
  exact T.dash_notMem (mem_of_strchr (by decide) hfound)

/-- **What is read as an option with its argument** is what spells it. -/
theorem nextItem_eq_setting_iff (args : List Bytes) :
    nextItem T prog args = .setting val value rest ↔
      ∃ front, Spells T val value front ∧ args = front ++ rest := by
  constructor
  · intro h
    unfold nextItem at h
    split at h
    · simp at h
    rename_i arg rest'
    split at h
    · simp at h
    · simp at h
    rename_i a c tail
    by_cases ha : a = dash
    · subst ha
      rw [if_neg (not_not.mpr rfl)] at h
      by_cases hc : c = dash
      · subst hc
        rw [if_neg (not_not.mpr rfl)] at h
        by_cases htail : tail = []
        · simp [htail] at h
        rw [if_neg htail] at h
        obtain ⟨o, ho, hkind, rfl, harg⟩ := longItem_eq_setting_iff.mp h
        rcases splitEqual_cases tail with ⟨name, v, hname, rfl⟩ | hnone
        · rw [splitEqual_append hname] at ho harg
          simp only [Option.some.injEq, reduceCtorEq, false_and, or_false] at harg
          obtain ⟨rfl, rfl⟩ := harg
          exact ⟨_, .equal hname ho hkind, rfl⟩
        · rw [splitEqual_of_notMem hnone] at ho harg
          simp only [reduceCtorEq, false_and, true_and, false_or] at harg
          exact ⟨_, .next hnone htail ho hkind, by rw [harg]; rfl⟩
      · rw [if_pos hc] at h
        obtain ⟨htakes, rfl, ⟨htail, rfl, rfl⟩ | ⟨rfl, rfl⟩⟩ := shortItem_eq_setting_iff.mp h
        · exact ⟨_, .attached htakes htail, rfl⟩
        · exact ⟨_, .apart htakes, rfl⟩
    · simp [ha] at h
  · rintro ⟨front, hspells, rfl⟩
    have hne : ∀ {c : UInt8}, TakesArgument T c → c ≠ dash := by
      rintro c hc rfl
      exact dash_not_takesArgument hc
    cases hspells with
    | attached hc hvalue =>
      simp only [List.cons_append, List.nil_append, nextItem, if_neg (not_not.mpr rfl),
        if_pos (hne hc)]
      exact shortItem_eq_setting_iff.mpr ⟨hc, rfl, Or.inl ⟨hvalue, rfl, rfl⟩⟩
    | apart hc =>
      simp only [List.cons_append, List.nil_append, nextItem, if_neg (not_not.mpr rfl),
        if_pos (hne hc)]
      exact shortItem_eq_setting_iff.mpr ⟨hc, rfl, Or.inr ⟨rfl, rfl⟩⟩
    | equal hname ho hkind =>
      simp only [List.cons_append, List.nil_append, nextItem, if_neg (not_not.mpr rfl),
        List.append_eq_nil_iff, reduceCtorEq, and_false, if_false]
      refine longItem_eq_setting_iff.mpr ⟨_, ?_, hkind, rfl, Or.inl ?_⟩
      · rw [splitEqual_append hname]
        exact ho
      · rw [splitEqual_append hname]
        exact ⟨rfl, rfl⟩
    | next hname hne' ho hkind =>
      simp only [List.cons_append, List.nil_append, nextItem, if_neg (not_not.mpr rfl),
        if_neg hne']
      refine longItem_eq_setting_iff.mpr ⟨_, ?_, hkind, rfl, Or.inr ?_⟩
      · rw [splitEqual_of_notMem hname]
        exact ho
      · rw [splitEqual_of_notMem hname]
        exact ⟨rfl, rfl⟩

/-- An option with its argument takes up an argument at least. -/
theorem length_rest_lt {args : List Bytes} (h : nextItem T prog args = .setting val value rest) :
    rest.length < args.length := by
  obtain ⟨front, hspells, rfl⟩ := (nextItem_eq_setting_iff args).mp h
  rw [List.length_append]
  cases hspells <;> simp

/-- What is read as an option without an argument is one. -/
theorem exists_of_flag {args : List Bytes} (h : nextItem T prog args = .flag val) :
    (∃ c, c ≠ colon ∧ (∃ arg ∈ args, c ∈ arg) ∧ toInt c = val ∧
      ∃ oli, strchr T.options c = some oli ∧ (oli.drop 1).head? ≠ some colon) ∨
    ∃ o ∈ T.longOptions, o.hasArg = .no ∧ o.val = val := by
  unfold nextItem at h
  split at h
  · simp at h
  rename_i arg rest
  split at h
  · simp at h
  · simp at h
  rename_i a c tail
  split at h
  · simp at h
  split at h
  · left
    unfold shortItem at h
    by_cases hcolon : c = colon
    · simp [hcolon] at h
    rw [if_neg hcolon] at h
    split at h
    · simp at h
    rename_i oli hfound
    split at h
    · rename_i hargument
      exact ⟨c, hcolon, ⟨_, List.mem_cons_self, by simp⟩, by simpa using h, oli, hfound, hargument⟩
    · split at h <;> simp at h
  · right
    split at h
    · simp at h
    unfold longItem at h
    split at h
    · simp at h
    rename_i o ho
    split at h
    · rename_i hkind
      exact ⟨o, mem_of_lookup ho, hkind, by simpa using h⟩
    · split at h <;> simp at h

/-- There are two kinds of faults. -/
theorem code_of_bad {args : List Bytes} {code : Int} {text : Bytes}
    (h : nextItem T prog args = .bad code text) : code = badch ∨ code = badarg := by
  unfold nextItem at h
  split at h
  · simp at h
  split at h
  · simp at h
  · simp at h
  split at h
  · simp at h
  split at h
  · unfold shortItem at h
    split at h
    · simp only [Item.bad.injEq] at h
      exact Or.inl h.1.symm
    split at h
    · simp at h
    split at h
    · simp at h
    · simp at h
    · simp only [Item.bad.injEq] at h
      exact Or.inr h.1.symm
  · split at h
    · simp at h
    unfold longItem at h
    split at h
    · simp only [Item.bad.injEq] at h
      exact Or.inl h.1.symm
    split at h
    · simp at h
    split at h
    · simp at h
    · simp at h
    · simp only [Item.bad.injEq] at h
      exact Or.inr h.1.symm

/-- The options end at the end of the arguments, at a dash or two dashes alone, or at the
first argument without a dash. -/
def Ends : List Bytes → Prop
  | [] => True
  | arg :: _ => arg = [dash] ∨ arg = [dash, dash] ∨ arg.head? ≠ some dash

/-- What is read as the end of the options. -/
theorem nextItem_eq_stop_iff (args : List Bytes) : nextItem T prog args = .stop ↔ Ends args := by
  have hshort : ∀ c tail rest, shortItem T prog c tail rest ≠ .stop := by
    intro c tail rest
    unfold shortItem
    split
    · simp
    · split
      · simp
      · split <;> simp
  have hlong : ∀ current rest, longItem T prog current rest ≠ .stop := by
    intro current rest
    unfold longItem
    split
    · simp
    · split
      · simp
      · split <;> simp
  unfold nextItem Ends
  split
  · simp
  · rename_i arg rest
    split
    · simp
    · rename_i a
      by_cases ha : a = dash <;> simp [ha]
    · rename_i a c tail
      by_cases ha : a = dash
      · by_cases hc : c = dash
        · by_cases htail : tail = []
          · simp [ha, hc, htail]
          · simp [ha, hc, htail, hlong]
        · simp [ha, hc, hshort]
      · simp [ha]

end Language

end GetOpt

end BafangEmulator
