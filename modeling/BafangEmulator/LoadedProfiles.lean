/-
  LoadedProfiles.lean --- what a profile loaded from a text serves.

  The constructor accepts any value that is not empty and `build` checks none, so
  whether a block can be built is up to the text.  The two results say for which
  texts it can: on the numbers of the wheel size and the speed meter for the basic
  block (`build_basic_of_text_iff`), and on the lengths of the two names for the
  general block (`build_general_of_text_iff`).
-/
import BafangEmulator.GeneralBlock
import BafangEmulator.ProfileGrammar

set_option autoImplicit false

namespace BafangEmulator

open Foundation

/-- The value a text gives to a key, or the default. -/
def definedText (text sec key default : Bytes) : Bytes :=
  (Profile.lastDefinition (text.splitOn Profile.newline) sec key).getD default

/-- The number a text gives to a key, or the default. -/
def definedNumber (text sec key : Bytes) (default : Int) : Int :=
  Profile.extractInt (definedText text sec key (decimal default))

section Loaded

variable {path text : Bytes} {files : Files} {p : Profile}

/-- A loaded profile finds what its text defines. -/
theorem findConst_of_construct (hfile : files path = some text)
    (hload : Profile.construct path files = .ok p) (sec key default : Bytes) :
    p.findConst sec key default = definedText text sec key default := by
  obtain ⟨data, hdata, rfl⟩ := Profile.eq_of_construct hfile hload
  rw [Profile.findConst, Profile.get?_of_parseText hdata, definedText]

theorem slotValue_of_construct (hfile : files path = some text)
    (hload : Profile.construct path files = .ok p) (sec key : Bytes) (default : Int) :
    slotValue p sec (key, default) = definedNumber text sec key default := by
  rw [slotValue, findConst_of_construct hfile hload, definedNumber]

theorem exists_of_construct (hfile : files path = some text)
    (hload : Profile.construct path files = .ok p) : p.exists_ = true := by
  obtain ⟨data, -, rfl⟩ := Profile.eq_of_construct hfile hload
  rfl

end Loaded

namespace PacketBuilder

/-! ## The basic block -/

/-- `build` is undefined or returns. -/
theorem build_cases (b : Block) (p : Profile) :
    (¬ Readable p b ∧ build b p = .undefined) ∨
    (Readable p b ∧ ∃ payload p', build b p = .returned payload p') := by
  rw [← isSome_served_iff]
  rcases build_run b p with ⟨hserved, hrun⟩ | ⟨payload, p', hserved, hrun, -⟩
  · exact Or.inl ⟨by rw [hserved]; simp, hrun⟩
  · exact Or.inr ⟨by rw [hserved]; rfl, payload, p', hrun⟩

/-- `build` returns when the stored numbers are readable. -/
theorem build_returns_iff (b : Block) (p : Profile) :
    (∃ payload p', build b p = .returned payload p') ↔ Readable p b := by
  rcases build_cases b p with ⟨hnot, hrun⟩ | ⟨hreadable, hrun⟩
  · rw [hrun]
    exact iff_of_false (by rintro ⟨_, _, ⟨⟩⟩) hnot
  · exact iff_of_true hrun hreadable

/-- **The basic block of a text.**  It can be built exactly when the wheel size is an
index into the table and the speed meter is small enough. -/
theorem build_basic_of_text_iff {path text : Bytes} {files : Files} {p : Profile}
    (hfile : files path = some text) (hload : Profile.construct path files = .ok p) :
    (∃ payload p', build .basic p = .returned payload p') ↔
      (0 ≤ definedNumber text Block.basic.sec (bytes "WD") 10 ∧
        definedNumber text Block.basic.sec (bytes "WD") 10 ≤ 15) ∧
      (-33554432 ≤ definedNumber text Block.basic.sec (bytes "SMM") 0 ∧
        definedNumber text Block.basic.sec (bytes "SMM") 0 ≤ 33554431) ∧
      FitsInt (definedNumber text Block.basic.sec (bytes "SMM") 0 * 64 +
        definedNumber text Block.basic.sec (bytes "SMS") 1) := by
  rw [build_returns_iff]
  simp only [Readable, slotValue_of_construct hfile hload, FitsInt, Profile.intMin,
    Profile.intMax]
  omega

/-- A wheel size of 99 is loaded, and the table is read outside. -/
theorem wheel_size_is_not_checked :
    ∃ p, Profile.construct (bytes "config.el") (fun _ => some (bytes "[Basic]\nWD=99\n")) = .ok p ∧
      slotValue p Block.basic.sec (bytes "WD", 10) = 99 ∧ build .basic p = .undefined := by
  refine ⟨⟨true, bytes "config.el", (∅ : ProfileData).set (bytes "Basic") (bytes "WD")
    (bytes "99")⟩, rfl, by decide, ?_⟩
  rcases build_cases .basic ⟨true, bytes "config.el", (∅ : ProfileData).set (bytes "Basic")
      (bytes "WD") (bytes "99")⟩ with ⟨-, hrun⟩ | ⟨hreadable, -⟩
  · exact hrun
  · exact absurd hreadable.1.2 (by decide)

/-- The basic block of a text that defines the wheel size twice. -/
theorem build_basic_of_text_iff_twice : ∃ p payload p',
    Profile.construct (bytes "config.el")
      (fun _ => some (bytes "[Basic]\nWD=99\nWD=3\nSMM=1")) = .ok p ∧
    build .basic p = .returned payload p' := by
  have hload : Profile.construct (bytes "config.el")
      (fun _ => some (bytes "[Basic]\nWD=99\nWD=3\nSMM=1")) =
        .ok ⟨true, bytes "config.el", (∅ : ProfileData).setAll
          [(bytes "Basic", bytes "WD", bytes "99"), (bytes "Basic", bytes "WD", bytes "3"),
            (bytes "Basic", bytes "SMM", bytes "1")]⟩ := rfl
  obtain ⟨payload, p', hrun⟩ := (@build_basic_of_text_iff (bytes "config.el")
    (bytes "[Basic]\nWD=99\nWD=3\nSMM=1") (fun _ => some (bytes "[Basic]\nWD=99\nWD=3\nSMM=1")) _
    rfl hload).mpr (by decide +kernel)
  exact ⟨_, payload, p', hload, hrun⟩

/-! ## The general block -/

/-- The first bytes of a value, with NUL bytes after a value that is shorter. -/
def padded (value : Bytes) (size : Nat) : Bytes := (value ++ List.replicate size 0).take size

theorem length_padded (value : Bytes) (size : Nat) : (padded value size).length = size := by
  rw [padded, List.length_take, List.length_append, List.length_replicate]
  omega

/-- A copy that stays inside the value and its NUL is padded. -/
theorem copyChars_eq_padded {value : Bytes} {size : Nat} (h : size ≤ value.length + 1) :
    copyChars value size = some (padded value size) := by
  rw [copyChars, if_pos h, padded]
  cases size with
  | zero => rfl
  | succ n =>
    have hlength : n + 1 ≤ (value ++ [0]).length := by simpa using h
    have hsplit : value ++ List.replicate (n + 1) 0 = (value ++ [0]) ++ List.replicate n 0 := by
      rw [List.append_assoc, List.singleton_append, List.replicate_succ]
    rw [hsplit, List.take_append_of_le_length hlength]

/-- The names in the payload. -/
theorem names_of_servedGeneral {p : Profile} {payload : Bytes}
    (h : servedGeneral p = some payload) :
    payload.take 4 = padded (manufacturerOf p) 4 ∧
      (payload.drop 4).take 4 = padded (modelOf p) 4 := by
  obtain ⟨hman, hmodel⟩ := (isSome_servedGeneral_iff p).mp (by rw [h]; rfl)
  have hlength := length_padded (manufacturerOf p) 4
  have hlength' := length_padded (modelOf p) 4
  rw [servedGeneral, copyChars_eq_padded (by omega), copyChars_eq_padded (by omega)] at h
  rw [← Option.some.inj h]
  simp only [generalPayload, List.append_assoc]
  constructor
  · exact List.take_left' hlength
  · rw [List.drop_left' hlength]
    exact List.take_left' hlength'

/-- **The general block of a text.**  The two names are copied from inside the values
and their NUL bytes exactly when both values have three characters at least. -/
theorem build_general_of_text_iff {env : Environment} {path text : Bytes} {files : Files}
    {p : Profile} (hfile : files path = some text)
    (hload : Profile.construct path files = .ok p) :
    (∃ payload s', buildGeneral env ⟨p, files⟩ = .returned payload s' ∧
      payload.take 4 = padded (definedText text generalSec (bytes "MANUFACTURER") (bytes "HZXT")) 4 ∧
      (payload.drop 4).take 4 =
        padded (definedText text generalSec (bytes "MODEL") (bytes "BBS3")) 4) ↔
    3 ≤ (definedText text generalSec (bytes "MANUFACTURER") (bytes "HZXT")).length ∧
      3 ≤ (definedText text generalSec (bytes "MODEL") (bytes "BBS3")).length := by
  have hman : manufacturerOf p = definedText text generalSec (bytes "MANUFACTURER") (bytes "HZXT") :=
    findConst_of_construct hfile hload _ _ _
  have hmodel : modelOf p = definedText text generalSec (bytes "MODEL") (bytes "BBS3") :=
    findConst_of_construct hfile hload _ _ _
  rw [← hman, ← hmodel]
  refine Iff.trans ?_ (isSome_servedGeneral_iff p)
  rcases buildGeneral_run env ⟨p, files⟩ with ⟨hserved, hrun⟩ | ⟨payload, p', hserved, -, hrun⟩
  · rw [hserved, hrun]
    exact iff_of_false (by rintro ⟨_, _, ⟨⟩, _⟩) (by simp)
  · rw [exists_of_construct hfile hload] at hrun
    rw [hserved, hrun]
    exact iff_of_true ⟨payload, _, rfl, names_of_servedGeneral hserved⟩ rfl

/-- A model of one character is loaded, and `memcpy` reads past its NUL. -/
theorem model_length_is_not_checked :
    ∃ p, Profile.construct (bytes "general.el") (fun _ => some (bytes "[General]\nMODEL=X\n")) =
        .ok p ∧
      modelOf p = bytes "X" ∧
      buildGeneral .working ⟨p, fun _ => some (bytes "[General]\nMODEL=X\n")⟩ = .undefined := by
  refine ⟨⟨true, bytes "general.el", (∅ : ProfileData).set (bytes "General") (bytes "MODEL")
    (bytes "X")⟩, rfl, by decide, ?_⟩
  rcases buildGeneral_run .working ⟨⟨true, bytes "general.el", (∅ : ProfileData).set
      (bytes "General") (bytes "MODEL") (bytes "X")⟩,
        fun _ => some (bytes "[General]\nMODEL=X\n")⟩ with ⟨-, hrun⟩ | ⟨payload, p', hserved, -, -⟩
  · exact hrun
  · have hreadable := (isSome_servedGeneral_iff _).mp (by rw [hserved]; rfl)
    exact absurd hreadable.2 (by decide)

/-- The general block of a text with a model of three characters. -/
theorem build_general_of_text_iff_three : ∃ p payload s',
    Profile.construct (bytes "general.el") (fun _ => some (bytes "[General]\nMODEL=BBS\n")) =
      .ok p ∧
    buildGeneral .working ⟨p, fun _ => some (bytes "[General]\nMODEL=BBS\n")⟩ =
      .returned payload s' ∧
    payload.take 4 = bytes "HZXT" ∧ (payload.drop 4).take 4 = bytes "BBS" ++ [0] := by
  have hload : Profile.construct (bytes "general.el")
      (fun _ => some (bytes "[General]\nMODEL=BBS\n")) =
        .ok ⟨true, bytes "general.el", (∅ : ProfileData).set (bytes "General") (bytes "MODEL")
          (bytes "BBS")⟩ := rfl
  obtain ⟨payload, s', hrun, hman, hmodel⟩ :=
    (@build_general_of_text_iff .working (bytes "general.el") (bytes "[General]\nMODEL=BBS\n")
      (fun _ => some (bytes "[General]\nMODEL=BBS\n")) _ rfl hload).mpr (by decide +kernel)
  exact ⟨_, payload, s', hload, hrun, hman, hmodel⟩

end PacketBuilder

end BafangEmulator
