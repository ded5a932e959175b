/-
  Profile.lean --- profile.h, profile.cpp: the keyed settings behind a block, and
  the text file they are loaded from and saved to.

  The files of the emulator are a partial map from paths to texts.  Text streams
  are transparent: what is written is what is read back.  Whether a path can be
  opened for writing is the environment's to say, at every save anew; a file that is
  opened is taken to be written completely.  The log of the trace is not among the files.
-/
import BafangEmulator.Foundation.Table
import BafangEmulator.Foundation.Decimal
import BafangEmulator.Foundation.Effect
import BafangEmulator.Packet

set_option autoImplicit false

namespace BafangEmulator

open Foundation
open Std (ExtTreeMap TransOrd LawfulEqOrd)

/-- `std::map<std::string, std::map<std::string, std::string>>`. -/
abbrev ProfileData : Type := Table Bytes Bytes Bytes

/-- The texts on disk, by path, without the log of the trace.  Two paths are two files. -/
abbrev Files : Type := Bytes → Option Bytes

/-- What the world outside decides during one event.  It is taken for granted that a file
that is opened takes all that is written to it, and that a write to the port that succeeds
sends all its bytes: `save_as` does not look at its stream, nor `write` at the count of
bytes written. -/
structure Environment where
  /-- Whether `std::ofstream` opens the path. -/
  opens : Bytes → Bool
  /-- Whether `WriteFile` on the serial port succeeds. -/
  writes : Bool

/-- Every save opens its file and every write to the serial port succeeds. -/
def Environment.working : Environment where
  opens _ := true
  writes := true

/-- No save opens its file, and no write to the serial port succeeds. -/
def Environment.failing : Environment where
  opens _ := false
  writes := false

/-- `core::profile`. -/
structure Profile where
  exists_ : Bool
  filename : Bytes
  data : ProfileData

namespace Profile

/-! ## profile::profile(path) -/

def newline : UInt8 := 0x0A
def openBracket : UInt8 := 0x5B
def closeBracket : UInt8 := 0x5D
def equalSign : UInt8 := 0x3D

/-- Thrown by the constructor on a line it cannot place. -/
def parseFailure (line : Bytes) : Exception :=
  .runtimeError (bytes "parse profile failure (" ++ line ++ bytes ")")

/-- The test for a section header. -/
def isHeader (line : Bytes) : Bool :=
  line.head? == some openBracket && line.getLast? == some closeBracket

/-- The body of the reading loop: the current section and the data so far, after
one line. -/
def readLine (state : Bytes × ProfileData) (line : Bytes) :
    Except Exception (Bytes × ProfileData) :=
  let (sec, data) := state
  if line.isEmpty then .ok (sec, data)
  else if isHeader line then .ok ((line.drop 1).take (line.length - 2), data)
  else
    match line.findIdx? (· == equalSign) with
    | none => .error (parseFailure line)
    | some equal =>
      let key := line.take equal
      let val := line.drop (equal + 1)
      if sec ≠ [] ∧ key ≠ [] ∧ val ≠ [] then .ok (sec, data.set sec key val)
      else .error (parseFailure line)

/-- The reading loop over the lines `std::getline` hands out until `eof()`. -/
def readLines (state : Bytes × ProfileData) (lines : List Bytes) :
    Except Exception (Bytes × ProfileData) :=
  lines.foldlM readLine state

/-- The data a text is read as. -/
def parseText (text : Bytes) : Except Exception ProfileData :=
  (readLines ([], ∅) (text.splitOn newline)).map Prod.snd

/-- `profile::profile(path)`.  A path that does not open leaves the profile empty
and marks it as not on disk. -/
def construct (path : Bytes) (files : Files) : Except Exception Profile :=
  match files path with
  | none => .ok { exists_ := false, filename := path, data := ∅ }
  | some text =>
    match parseText text with
    | .error e => .error e
    | .ok data => .ok { exists_ := true, filename := path, data := data }

/-! ## profile::save and profile::save_as -/

/-- One entry as `save_as` prints it. -/
def renderItem (item : Bytes × Bytes) : Bytes := item.1 ++ equalSign :: item.2 ++ [newline]

/-- One section as `save_as` prints it. -/
def renderSection (s : Bytes × List (Bytes × Bytes)) : Bytes :=
  openBracket :: s.1 ++ [closeBracket, newline] ++ s.2.flatMap renderItem

/-- The text `save_as` writes. -/
def render (data : ProfileData) : Bytes := data.entries.flatMap renderSection

/-- Thrown by `save_as` when the file does not open. -/
def saveFailure : Exception := .runtimeError (bytes "save profile failure")

end Profile

/-- A profile and the files it is saved to. -/
structure Store where
  profile : Profile
  files : Files

namespace Profile

/-- The store after a save to `path`, where everything is written that should be. -/
def saved (path : Bytes) (s : Store) : Store where
  profile := { s.profile with exists_ := true, filename := path }
  files := Function.update s.files path (some (render s.profile.data))

/-- `profile::save_as`. -/
def saveAs (env : Environment) (path : Bytes) : Exec Exception Store Unit := do
  if env.opens path then Exec.modify (saved path) else Exec.throw saveFailure

/-- `profile::save`. -/
def save (env : Environment) : Exec Exception Store Unit := do
  let s ← Exec.get
  saveAs env s.profile.filename

theorem saveAs_run (env : Environment) (path : Bytes) (s : Store) :
    saveAs env path s =
      if env.opens path then .returned () (saved path s) else .threw saveFailure s := by
  unfold saveAs
  split <;> rfl

theorem save_run (env : Environment) (s : Store) :
    save env s = if env.opens s.profile.filename then .returned () (saved s.profile.filename s)
      else .threw saveFailure s :=
  saveAs_run env s.profile.filename s

/-! ## profile::add and profile::find -/

/-- `profile::add`. -/
def add (p : Profile) (sec key value : Bytes) : Profile :=
  { p with data := p.data.set sec key value }

/-- `profile::add<T>` for an integer. -/
def addInt (p : Profile) (sec key : Bytes) (value : Int) : Profile :=
  p.add sec key (decimal value)

/-- `profile::find() const`. -/
def findConst (p : Profile) (sec key default : Bytes) : Bytes :=
  (p.data.get? sec key).getD default

/-- `profile::find()`: a missing key is stored with its default, unless the
profile exists on disk. -/
def find (p : Profile) (sec key default : Bytes) : Bytes × Profile :=
  match p.data.get? sec key with
  | some value => (value, p)
  | none => (default, if !p.exists_ then p.add sec key default else p)

/-- The bounds of `int`. -/
def intMin : Int := -2147483648
def intMax : Int := 2147483647

/-- `ss >> t` for an `int`. -/
def extractInt (text : Bytes) : Int := scanInt intMin intMax text

/-- `profile::find<int>`. -/
def findInt (p : Profile) (sec key : Bytes) (default : Int) : Int × Profile :=
  let (text, p') := p.find sec key (decimal default)
  (extractInt text, p')

theorem extractInt_decimal {z : Int} (hlo : intMin ≤ z) (hhi : z ≤ intMax) :
    extractInt (decimal z) = z := scanInt_decimal hlo hhi

@[simp] theorem find_fst (p : Profile) (sec key default : Bytes) :
    (p.find sec key default).1 = p.findConst sec key default := by
  unfold find findConst
  cases p.data.get? sec key <;> rfl

@[simp] theorem find_exists (p : Profile) (sec key default : Bytes) :
    (p.find sec key default).2.exists_ = p.exists_ := by
  unfold find
  cases p.data.get? sec key with
  | some value => rfl
  | none => cases h : p.exists_ <;> simp [add, h]

@[simp] theorem find_filename (p : Profile) (sec key default : Bytes) :
    (p.find sec key default).2.filename = p.filename := by
  unfold find
  cases p.data.get? sec key with
  | some value => rfl
  | none => cases h : p.exists_ <;> simp [add]

/-- `find` keeps every entry, and a new one can only be the default asked for. -/
theorem get?_find (p : Profile) (sec key default sec' key' : Bytes) :
    (p.find sec key default).2.data.get? sec' key' = p.data.get? sec' key' ∨
      (p.exists_ = false ∧ p.data.get? sec' key' = none ∧ sec = sec' ∧ key = key' ∧
        (p.find sec key default).2.data.get? sec' key' = some default) := by
  unfold find
  cases hv : p.data.get? sec key with
  | some value => exact Or.inl rfl
  | none =>
    cases he : p.exists_ with
    | true => exact Or.inl rfl
    | false =>
      by_cases h : sec = sec' ∧ key = key'
      · obtain ⟨rfl, rfl⟩ := h
        exact Or.inr ⟨rfl, hv, rfl, rfl, Table.get?_set_self _ _ _ _⟩
      · exact Or.inl (Table.get?_set_of_ne h)

/-! ## profile::compare -/

section Compare

variable {κ υ : Type} [Ord κ] [TransOrd κ]

/-- `operator==` on maps: the sizes, then every entry of the left operand. -/
def mapEqual (equal : υ → υ → Bool) (lhs rhs : ExtTreeMap κ υ) : Bool :=
  if lhs.size ≠ rhs.size then false
  else lhs.toList.all fun item =>
    match rhs[item.1]? with
    | none => false
    | some value => equal item.2 value

/-- The entries of a map are pairwise different. -/
theorem nodup_toList [LawfulEqOrd κ] (m : ExtTreeMap κ υ) : m.toList.Nodup := by
  refine (ExtTreeMap.distinct_keys_toList (t := m)).imp ?_
  rintro ⟨k, v⟩ ⟨k', v'⟩ h heq
  simp only [Prod.mk.injEq] at heq
  exact h (by rw [heq.1]; exact Std.ReflCmp.compare_self)

/-- Comparing the sizes makes up for looking at the left operand only. -/
theorem mapEqual_iff [LawfulEqOrd κ] {equal : υ → υ → Bool}
    (hequal : ∀ a b, equal a b = true ↔ a = b) (lhs rhs : ExtTreeMap κ υ) :
    mapEqual equal lhs rhs = true ↔ lhs = rhs := by
  constructor
  · intro h
    unfold mapEqual at h
    split at h
    · simp at h
    · rename_i hsize
      have hsub : lhs.toList ⊆ rhs.toList := by
        rintro ⟨k, v⟩ hkv
        have hitem := List.all_eq_true.mp h (k, v) hkv
        cases hr : rhs[k]? with
        | none => simp [hr] at hitem
        | some v' =>
          simp only [hr] at hitem
          rw [ExtTreeMap.mem_toList_iff_getElem?_eq_some, hr, (hequal v v').mp hitem]
      have hlen : rhs.toList.length ≤ lhs.toList.length := by
        rw [ExtTreeMap.length_toList, ExtTreeMap.length_toList]
        omega
      have hperm : lhs.toList.Perm rhs.toList :=
        (List.subperm_of_subset (nodup_toList lhs) hsub).perm_of_length_le hlen
      refine ExtTreeMap.ext_getElem? fun {k} => Option.ext fun v => ?_
      rw [← ExtTreeMap.mem_toList_iff_getElem?_eq_some, hperm.mem_iff,
        ExtTreeMap.mem_toList_iff_getElem?_eq_some]
  · rintro rfl
    simp only [mapEqual, ne_eq, not_true_eq_false, if_false, List.all_eq_true]
    rintro ⟨k, v⟩ hkv
    rw [ExtTreeMap.mem_toList_iff_getElem?_eq_some] at hkv
    simp only [hkv]
    exact (hequal v v).mpr rfl

end Compare

/-- `profile::compare`, which is `operator==` on profiles. -/
protected def compare (lhs rhs : Profile) : Bool :=
  mapEqual (mapEqual fun a b => a == b) lhs.data.sections rhs.data.sections

/-- Profiles compare equal exactly when they hold the same data. -/
theorem compare_iff (lhs rhs : Profile) : lhs.compare rhs = true ↔ lhs.data = rhs.data := by
  have hinner : ∀ a b : ExtTreeMap Bytes Bytes,
      mapEqual (fun x y => x == y) a b = true ↔ a = b :=
    mapEqual_iff fun _ _ => beq_iff_eq
  rw [Profile.compare, mapEqual_iff hinner]
  obtain ⟨_, _, ⟨_, _⟩⟩ := lhs
  obtain ⟨_, _, ⟨_, _⟩⟩ := rhs
  simp

/-- A lookup with every default tells a missing text from one that is there. -/
theorem eq_of_getD_eq {a b : Option Bytes} (h : ∀ default, a.getD default = b.getD default) :
    a = b := by
  have hlonger : ∀ text : Bytes, text ++ [0] ≠ text := fun text heq => by
    simpa using congrArg List.length heq
  cases a with
  | none =>
    cases b with
    | none => rfl
    | some text => exact absurd (h (text ++ [0])) (hlonger text)
  | some text =>
    cases b with
    | none => exact absurd (h (text ++ [0])).symm (hlonger text)
    | some text' => exact congrArg some (h [])

/-- Profiles hold the same data exactly when no lookup tells them apart. -/
theorem data_eq_iff (p q : Profile) : p.data = q.data ↔
    ∀ sec key default, p.findConst sec key default = q.findConst sec key default := by
  constructor
  · intro h sec key default
    rw [findConst, findConst, h]
  · intro h
    exact Table.ext_get? fun sec key => eq_of_getD_eq (h sec key)

/-- **Comparison is observational equality**: profiles compare equal exactly when every
lookup finds the same text in both.  So comparison is symmetric and transitive,
although it goes through its left operand only. -/
theorem compare_eq_true_iff_findConst :
    (∀ p q : Profile, p.compare q = true ↔
      ∀ sec key default, p.findConst sec key default = q.findConst sec key default) ∧
    (∀ p q : Profile, p.compare q = q.compare p) ∧
    (∀ p q r : Profile, p.compare q = true → q.compare r = true → p.compare r = true) := by
  refine ⟨fun p q => ?_, fun p q => ?_, fun p q r hpq hqr => ?_⟩
  · rw [compare_iff, data_eq_iff]
  · rw [Bool.eq_iff_iff, compare_iff, compare_iff]
    exact eq_comm
  · rw [compare_iff] at hpq hqr ⊢
    exact hpq.trans hqr

/-- Three profiles filled in different orders. -/
theorem compare_eq_true_iff_findConst_orders :
    Profile.compare
      ⟨true, bytes "a.el", ((∅ : ProfileData).set (bytes "A") (bytes "k") (bytes "1")).set
        (bytes "B") (bytes "k") (bytes "2")⟩
      ⟨false, bytes "c.el", (((∅ : ProfileData).set (bytes "A") (bytes "k") (bytes "0")).set
        (bytes "A") (bytes "k") (bytes "1")).set (bytes "B") (bytes "k") (bytes "2")⟩ = true :=
  compare_eq_true_iff_findConst.2.2 _
    ⟨false, bytes "b.el", ((∅ : ProfileData).set (bytes "B") (bytes "k") (bytes "2")).set
      (bytes "A") (bytes "k") (bytes "1")⟩ _ (by decide +kernel) (by decide +kernel)

end Profile

end BafangEmulator
