/-
  GeneralBlock.lean --- the general block: what the general profile serves.

  The general block is read only, but its read has a side effect: a profile that
  does not exist on disk is filled with its defaults and saved.  The payload has
  no value when `memcpy` would read past the terminating NUL of a stored name
  (`GeneralReadable`).
-/
import BafangEmulator.Served

set_option autoImplicit false

namespace BafangEmulator

open Foundation

/-- The numbers of the general block, with their defaults. -/
def generalNumbers : List (Bytes × Int) :=
  [ (bytes "HARDWARD", PacketBuilder.multichar "31"),
    (bytes "FIRMWARD", PacketBuilder.multichar "1100"),
    (bytes "VOLTS", 4),
    (bytes "LIMIT", 30) ]

/-- The defaults of the general block. -/
def generalSlots : List Slot :=
  (PacketBuilder.generalSec, bytes "MANUFACTURER", bytes "HZXT") ::
    (PacketBuilder.generalSec, bytes "MODEL", bytes "BBS3") ::
      generalNumbers.map fun slot => (PacketBuilder.generalSec, slot.1, decimal slot.2)

theorem unambiguous_generalSlots : Unambiguous generalSlots := by decide +kernel

/-- The stored manufacturer. -/
def manufacturerOf (p : Profile) : Bytes :=
  p.findConst PacketBuilder.generalSec (bytes "MANUFACTURER") (bytes "HZXT")

/-- The stored model. -/
def modelOf (p : Profile) : Bytes :=
  p.findConst PacketBuilder.generalSec (bytes "MODEL") (bytes "BBS3")

/-- A stored number of the general block. -/
def generalNumber (p : Profile) (key : String) (default : Int) : Int :=
  slotValue p PacketBuilder.generalSec (bytes key, default)

/-- The payload `build` sends for the general block, unless its behaviour is
undefined. -/
def servedGeneral (p : Profile) : Option Bytes :=
  match PacketBuilder.copyChars (manufacturerOf p) 4 with
  | none => none
  | some manufacturer =>
    match PacketBuilder.copyChars (modelOf p) 4 with
    | none => none
    | some model =>
      some (PacketBuilder.generalPayload manufacturer model
        (generalNumber p "HARDWARD" (PacketBuilder.multichar "31"))
        (generalNumber p "FIRMWARD" (PacketBuilder.multichar "1100"))
        (generalNumber p "VOLTS" 4) (generalNumber p "LIMIT" 30))

/-- Both names have the three characters that, with the NUL, make four. -/
def GeneralReadable (p : Profile) : Prop :=
  3 ≤ (manufacturerOf p).length ∧ 3 ≤ (modelOf p).length

instance (p : Profile) : Decidable (GeneralReadable p) := inferInstanceAs (Decidable (_ ∧ _))

theorem isSome_copyChars (value : Bytes) (size : Nat) :
    (PacketBuilder.copyChars value size).isSome = true ↔ size ≤ value.length + 1 := by
  unfold PacketBuilder.copyChars
  split <;> simp_all

/-- The general block has a value exactly when its stored names are readable. -/
theorem isSome_servedGeneral_iff (p : Profile) :
    (servedGeneral p).isSome = true ↔ GeneralReadable p := by
  have h₁ := isSome_copyChars (manufacturerOf p) 4
  have h₂ := isSome_copyChars (modelOf p) 4
  unfold servedGeneral GeneralReadable
  cases hm : PacketBuilder.copyChars (manufacturerOf p) 4 with
  | none =>
    rw [hm] at h₁
    simp only [Option.isSome_none, Bool.false_eq_true, false_iff] at h₁
    simp only [Option.isSome_none, Bool.false_eq_true, false_iff]
    omega
  | some manufacturer =>
    rw [hm] at h₁
    cases hn : PacketBuilder.copyChars (modelOf p) 4 with
    | none =>
      rw [hn] at h₂
      simp only [Option.isSome_none, Bool.false_eq_true, false_iff] at h₂
      simp only [Option.isSome_none, Bool.false_eq_true, false_iff]
      omega
    | some model =>
      rw [hn] at h₂
      simp only [Option.isSome_some, true_iff] at h₁ h₂
      simp only [Option.isSome_some, true_iff]
      omega

/-- A save leaves the general block alone. -/
theorem servedGeneral_saved (path : Bytes) (s : Store) :
    servedGeneral (Profile.saved path s).profile = servedGeneral s.profile := rfl

theorem mem_generalSlots_of_mem {slot : Bytes × Int} (h : slot ∈ generalNumbers) :
    (PacketBuilder.generalSec, slot.1, decimal slot.2) ∈ generalSlots :=
  List.mem_cons_of_mem _ (List.mem_cons_of_mem _ (List.mem_map.mpr ⟨slot, h, rfl⟩))

section Filled

variable {p p' : Profile} (h : Filled generalSlots p p')

include h

theorem Filled.manufacturerOf_eq : manufacturerOf p' = manufacturerOf p :=
  h.findConst_eq unambiguous_generalSlots List.mem_cons_self

theorem Filled.modelOf_eq : modelOf p' = modelOf p :=
  h.findConst_eq unambiguous_generalSlots (List.mem_cons_of_mem _ List.mem_cons_self)

theorem Filled.generalNumber_eq (key : String) {default : Int}
    (hslot : (bytes key, default) ∈ generalNumbers) :
    generalNumber p' key default = generalNumber p key default := by
  rw [generalNumber, generalNumber, slotValue, slotValue,
    h.findConst_eq unambiguous_generalSlots (mem_generalSlots_of_mem hslot)]

/-- Filling in defaults leaves the general block alone. -/
theorem Filled.servedGeneral_eq : servedGeneral p' = servedGeneral p := by
  unfold servedGeneral
  rw [h.manufacturerOf_eq, h.modelOf_eq,
    h.generalNumber_eq "HARDWARD" (by simp [generalNumbers]),
    h.generalNumber_eq "FIRMWARD" (by simp [generalNumbers]),
    h.generalNumber_eq "VOLTS" (by simp [generalNumbers]),
    h.generalNumber_eq "LIMIT" (by simp [generalNumbers])]

end Filled

namespace PacketBuilder

/-- A name of the general block is found as it was before any filling. -/
theorem findText_general_run {p p' : Profile} (h : Filled generalSlots p p') {key text : Bytes}
    (hslot : (generalSec, key, text) ∈ generalSlots) :
    ∃ p'', findText generalSec key text p' =
        .returned (p.findConst generalSec key text) p'' ∧ Filled generalSlots p p'' := by
  refine ⟨_, ?_, h.trans (Filled.find hslot p')⟩
  rw [findText_run, h.findConst_eq unambiguous_generalSlots hslot]

/-- A number of the general block is found as it was before any filling. -/
theorem findInt_general_run {p p' : Profile} (h : Filled generalSlots p p') (key : String)
    (default : Int) (hslot : (bytes key, default) ∈ generalNumbers) :
    ∃ p'', findInt generalSec (bytes key) default p' =
        .returned (generalNumber p key default) p'' ∧ Filled generalSlots p p'' := by
  refine ⟨_, ?_, h.trans (Filled.find (mem_generalSlots_of_mem hslot) p')⟩
  rw [findInt_run, ← h.generalNumber_eq key hslot]
  rfl

/-- The statements of `build` return the general block, if it has a value, and fill
in defaults at most. -/
theorem buildGeneralPayload_run (p : Profile) :
    (servedGeneral p = none ∧ buildGeneralPayload p = .undefined) ∨
    ∃ payload p', servedGeneral p = some payload ∧
      buildGeneralPayload p = .returned payload p' ∧ Filled generalSlots p p' := by
  obtain ⟨p₁, hfind₁, h₁⟩ :=
    findText_general_run (Filled.refl generalSlots p)
      List.mem_cons_self
  obtain ⟨p₂, hfind₂, h₂⟩ := findText_general_run h₁
    (List.mem_cons_of_mem _ List.mem_cons_self)
  rw [buildGeneralPayload, Exec.bind_of_returned hfind₁]
  cases hman : copyChars (manufacturerOf p) 4 with
  | none =>
    refine Or.inl ⟨by simp [servedGeneral, hman], ?_⟩
    exact Exec.bind_of_undefined (by rw [← manufacturerOf, hman, Exec.ofOption_none_run])
  | some manufacturer =>
    rw [← manufacturerOf, hman, Exec.bind_of_returned (Exec.ofOption_some_run manufacturer p₁),
      Exec.bind_of_returned hfind₂]
    cases hmodel : copyChars (modelOf p) 4 with
    | none =>
      refine Or.inl ⟨by simp [servedGeneral, hman, hmodel], ?_⟩
      exact Exec.bind_of_undefined (by rw [← modelOf, hmodel, Exec.ofOption_none_run])
    | some model =>
      obtain ⟨p₃, hfind₃, h₃⟩ :=
        findInt_general_run h₂ "HARDWARD" (multichar "31") (by simp [generalNumbers])
      obtain ⟨p₄, hfind₄, h₄⟩ :=
        findInt_general_run h₃ "FIRMWARD" (multichar "1100") (by simp [generalNumbers])
      obtain ⟨p₅, hfind₅, h₅⟩ := findInt_general_run h₄ "VOLTS" 4 (by simp [generalNumbers])
      obtain ⟨p₆, hfind₆, h₆⟩ := findInt_general_run h₅ "LIMIT" 30 (by simp [generalNumbers])
      refine Or.inr ⟨_, p₆, by simp only [servedGeneral, hman, hmodel]; rfl, ?_, h₆⟩
      rw [← modelOf, hmodel, Exec.bind_of_returned (Exec.ofOption_some_run model p₂),
        Exec.bind_of_returned hfind₃, Exec.bind_of_returned hfind₄,
        Exec.bind_of_returned hfind₅, Exec.bind_of_returned hfind₆]
      rfl

/-- **`build`** for the general block: the payload is returned when the profile
exists on disk or can be saved; a save that fails leaves the defaults filled in. -/
theorem buildGeneral_run (env : Environment) (s : Store) :
    (servedGeneral s.profile = none ∧ buildGeneral env s = .undefined) ∨
    ∃ payload p', servedGeneral s.profile = some payload ∧ Filled generalSlots s.profile p' ∧
      buildGeneral env s =
        if s.profile.exists_ then .returned payload { s with profile := p' }
        else if env.opens s.profile.filename then
          .returned payload (Profile.saved s.profile.filename { s with profile := p' })
        else .threw Profile.saveFailure { s with profile := p' } := by
  rcases buildGeneralPayload_run s.profile with ⟨hserved, hrun⟩ | ⟨payload, p', hserved, hrun, hfill⟩
  · refine Or.inl ⟨hserved, Exec.bind_of_undefined ?_⟩
    simp [onProfile, Exec.zoom_run, hrun]
  · refine Or.inr ⟨payload, p', hserved, hfill, ?_⟩
    have hpayload : onProfile buildGeneralPayload s = .returned payload { s with profile := p' } := by
      simp [onProfile, Exec.zoom_run, hrun]
    rw [buildGeneral, Exec.bind_of_returned hpayload, Exec.bind_of_returned (Exec.get_run _)]
    simp only [hfill.exists_eq]
    cases he : s.profile.exists_ with
    | true => rfl
    | false =>
      simp only [Bool.not_false, if_true, Bool.false_eq_true, if_false]
      rw [Exec.bind_run, Profile.save_run]
      simp only [hfill.filename_eq]
      cases env.opens s.profile.filename <;> rfl

end PacketBuilder

end BafangEmulator
