/-
  Foundation/Format.lean --- the format language of `printf`.

  A format is a sequence of directives: ordinary characters, which are printed as
  they are, `%%`, which prints one percent sign, and conversion specifications,
  each of which takes at least one argument.  A percent sign that starts neither
  makes the format undefined.

  `vfprintf` is what a format prints when there are no arguments to take.  A format
  prints itself exactly when it is free of percent signs (`vfprintf_eq_self_iff`), and
  prints anything at all exactly when they come in pairs (`isSome_vfprintf_iff`).
-/
import BafangEmulator.Foundation.Decimal

set_option autoImplicit false

namespace BafangEmulator.Foundation.Format

/-! ## Directives -/

def percentSign : UInt8 := 0x25
def asterisk : UInt8 := 0x2A
def period : UInt8 := 0x2E

/-- `-`, `+`, blank, `#` and `0`. -/
def isFlag (c : UInt8) : Bool := (bytes "-+ #0").contains c

/-- The longer ones first. -/
def lengthModifiers : List Bytes := ["hh", "h", "ll", "l", "j", "z", "t", "L"].map bytes

def isSpecifier (c : UInt8) : Bool := (bytes "diouxXfFeEgGaAcspn").contains c

/-- A field width or a precision: digits, possibly none, or the next argument. -/
inductive Size where
  | digits (ds : Bytes)
  | argument

/-- `%`, flags, field width, precision, length modifier, specifier.  Which of them go
together is not looked at. -/
structure Conversion where
  flags : Bytes
  width : Size
  precision : Option Size
  length : Bytes
  specifier : UInt8

inductive Directive where
  | ordinary (c : UInt8)
  | percent
  | conversion (c : Conversion)

namespace Size

def spelling : Size → Bytes
  | digits ds => ds
  | argument => [asterisk]

def arguments : Size → Nat
  | digits _ => 0
  | argument => 1

end Size

namespace Conversion

def spelling (c : Conversion) : Bytes :=
  percentSign :: c.flags ++ c.width.spelling ++
    (c.precision.elim [] fun size => period :: size.spelling) ++ c.length ++ [c.specifier]

/-- The arguments it takes: the stars, and the one that is converted. -/
def arguments (c : Conversion) : Nat :=
  c.width.arguments + c.precision.elim 0 Size.arguments + 1

end Conversion

namespace Directive

/-- The characters of the format it is read from. -/
def spelling : Directive → Bytes
  | ordinary c => [c]
  | percent => [percentSign, percentSign]
  | conversion c => c.spelling

/-- The number of arguments it takes. -/
def arguments : Directive → Nat
  | ordinary _ => 0
  | percent => 0
  | conversion c => c.arguments

/-- What it prints, when it takes no argument. -/
def text : Directive → Bytes
  | ordinary c => [c]
  | percent => [percentSign]
  | conversion _ => []

theorem spelling_ne_nil (d : Directive) : d.spelling ≠ [] := by
  cases d <;> simp [spelling, Conversion.spelling]

end Directive

/-! ## Reading a format -/

def readSize (format : Bytes) : Size × Bytes :=
  if format.head? = some asterisk then (.argument, format.drop 1)
  else (.digits (format.takeWhile isDigit), format.dropWhile isDigit)

def readPrecision (format : Bytes) : Option Size × Bytes :=
  if format.head? = some period then
    let (size, rest) := readSize (format.drop 1)
    (some size, rest)
  else (none, format)

def readLength (format : Bytes) : Bytes × Bytes :=
  let modifier := (lengthModifiers.find? fun m => m.isPrefixOf format).getD []
  (modifier, format.drop modifier.length)

/-- A conversion specification, after its percent sign. -/
def readConversion (format : Bytes) : Option (Conversion × Bytes) :=
  let (width, rest) := readSize (format.dropWhile isFlag)
  let (precision, rest) := readPrecision rest
  let (length, rest) := readLength rest
  match rest with
  | [] => none
  | c :: rest =>
    if isSpecifier c then some (⟨format.takeWhile isFlag, width, precision, length, c⟩, rest)
    else none

/-- The first directive of a format, and the rest of the format. -/
def readDirective : Bytes → Option (Directive × Bytes)
  | [] => none
  | c :: rest =>
    if c ≠ percentSign then some (.ordinary c, rest)
    else if rest.head? = some percentSign then some (.percent, rest.drop 1)
    else (readConversion rest).map fun r => (.conversion r.1, r.2)

theorem eq_cons_of_head? {c : UInt8} {l : Bytes} (h : l.head? = some c) : l = c :: l.drop 1 := by
  obtain ⟨l', rfl⟩ := List.head?_eq_some_iff.mp h
  rfl

theorem spelling_readSize (format : Bytes) :
    (readSize format).1.spelling ++ (readSize format).2 = format := by
  unfold readSize
  split
  · rename_i h
    exact (eq_cons_of_head? h).symm
  · exact List.takeWhile_append_dropWhile

theorem spelling_readPrecision (format : Bytes) :
    ((readPrecision format).1.elim [] fun size => period :: size.spelling) ++
      (readPrecision format).2 = format := by
  unfold readPrecision
  split
  · rename_i h
    show period :: (readSize (format.drop 1)).1.spelling ++ (readSize (format.drop 1)).2 = format
    rw [List.cons_append, spelling_readSize]
    exact (eq_cons_of_head? h).symm
  · rfl

theorem spelling_readLength (format : Bytes) :
    (readLength format).1 ++ (readLength format).2 = format := by
  unfold readLength
  cases hfind : lengthModifiers.find? fun m => m.isPrefixOf format with
  | none => rfl
  | some m =>
    have hprefix := List.find?_some hfind
    rw [List.isPrefixOf_iff_prefix] at hprefix
    exact List.prefix_iff_eq_append.mp hprefix

theorem spelling_readConversion {format rest : Bytes} {c : Conversion}
    (h : readConversion format = some (c, rest)) : c.spelling ++ rest = percentSign :: format := by
  unfold readConversion at h
  simp only at h
  split at h
  · cases h
  · rename_i c' rest' hrest
    split at h
    · obtain ⟨rfl, rfl⟩ := Prod.mk.inj (Option.some.inj h)
      have hlength := spelling_readLength (readPrecision (readSize (format.dropWhile isFlag)).2).2
      have hprecision := spelling_readPrecision (readSize (format.dropWhile isFlag)).2
      have hwidth := spelling_readSize (format.dropWhile isFlag)
      have hflags := List.takeWhile_append_dropWhile (p := isFlag) (l := format)
      rw [hrest] at hlength
      rw [← hlength] at hprecision
      rw [← hprecision] at hwidth
      rw [← hwidth] at hflags
      simp only [Conversion.spelling, List.cons_append, List.append_assoc, List.nil_append]
      rw [hflags]
    · cases h

/-- A directive is read from its spelling. -/
theorem spelling_readDirective {format rest : Bytes} {d : Directive}
    (h : readDirective format = some (d, rest)) : d.spelling ++ rest = format := by
  cases format with
  | nil => cases h
  | cons c format =>
    rw [readDirective] at h
    split at h
    · obtain ⟨rfl, rfl⟩ := Prod.mk.inj (Option.some.inj h)
      rfl
    · rename_i hc
      have hpercent : c = percentSign := Decidable.not_not.mp hc
      subst hpercent
      split at h
      · rename_i hsecond
        obtain ⟨rfl, rfl⟩ := Prod.mk.inj (Option.some.inj h)
        exact congrArg (percentSign :: ·) (eq_cons_of_head? hsecond).symm
      · obtain ⟨⟨c, rest'⟩, hread, heq⟩ := Option.map_eq_some_iff.mp h
        obtain ⟨rfl, rfl⟩ := Prod.mk.inj heq
        exact spelling_readConversion hread

theorem ne_of_readDirective_ordinary {format rest : Bytes} {c : UInt8}
    (h : readDirective format = some (.ordinary c, rest)) : c ≠ percentSign := by
  cases format with
  | nil => cases h
  | cons c' format =>
    rw [readDirective] at h
    split at h
    · rename_i hc
      obtain ⟨hsame, -⟩ := Prod.mk.inj (Option.some.inj h)
      rw [← Directive.ordinary.inj hsame]
      exact hc
    · split at h
      · cases h
      · obtain ⟨r, -, heq⟩ := Option.map_eq_some_iff.mp h
        cases heq

/-- A directive takes at least one character. -/
theorem length_lt_of_readDirective {format rest : Bytes} {d : Directive}
    (h : readDirective format = some (d, rest)) : rest.length < format.length := by
  have hd := List.length_pos_of_ne_nil d.spelling_ne_nil
  rw [← spelling_readDirective h, List.length_append]
  omega

/-- The directives of a format, unless it is undefined. -/
def directives (format : Bytes) : Option (List Directive) :=
  if format = [] then some []
  else
    match _h : readDirective format with
    | none => none
    | some (d, rest) => (directives rest).map (d :: ·)
termination_by format.length
decreasing_by exact length_lt_of_readDirective ‹_›

theorem directives_nil : directives [] = some [] := by
  rw [directives]
  rfl

theorem directives_of_readDirective {format rest : Bytes} {d : Directive}
    (h : readDirective format = some (d, rest)) :
    directives format = (directives rest).map (d :: ·) := by
  have hformat : format ≠ [] := by
    rintro rfl
    cases h
  rw [directives, if_neg hformat]
  split
  · rename_i hnone
    rw [hnone] at h
    cases h
  · rename_i d' rest' hsome
    rw [hsome, Option.some.injEq, Prod.mk.injEq] at h
    obtain ⟨rfl, rfl⟩ := h
    rfl

/-- The directives of a format spell it, and its percent signs are theirs. -/
theorem spelling_of_directives {format : Bytes} : ∀ {ds : List Directive},
    directives format = some ds →
      ds.flatMap Directive.spelling = format ∧ ∀ c, .ordinary c ∈ ds → c ≠ percentSign := by
  induction format using directives.induct with
  | case1 =>
    intro ds h
    rw [directives_nil] at h
    rw [← Option.some.inj h]
    exact ⟨rfl, by simp⟩
  | case2 format hformat hnone =>
    intro ds h
    rw [directives, if_neg hformat] at h
    split at h
    · cases h
    · rename_i d rest hsome
      rw [hnone] at hsome
      cases hsome
  | case3 format hformat d rest hread ih =>
    intro ds h
    rw [directives_of_readDirective hread] at h
    obtain ⟨ds', hrest, rfl⟩ := Option.map_eq_some_iff.mp h
    obtain ⟨hspelling, hordinary⟩ := ih hrest
    refine ⟨?_, fun c hc => ?_⟩
    · rw [List.flatMap_cons, hspelling]
      exact spelling_readDirective hread
    · rcases List.mem_cons.mp hc with rfl | hc
      · exact ne_of_readDirective_ordinary hread
      · exact hordinary c hc

/-- Without percent signs all characters are ordinary. -/
theorem directives_of_notMem {format : Bytes} (h : percentSign ∉ format) :
    directives format = some (format.map .ordinary) := by
  induction format with
  | nil => exact directives_nil
  | cons c format ih =>
    have hc : c ≠ percentSign := fun heq => h (heq ▸ List.mem_cons_self)
    have hread : readDirective (c :: format) = some (.ordinary c, format) := if_pos hc
    rw [directives_of_readDirective hread, ih fun hmem => h (List.mem_cons_of_mem c hmem)]
    rfl

/-! ## Printing -/

/-- What a format prints when no arguments are given.  It is undefined when the format
is, and when a directive takes an argument. -/
def vfprintf (format : Bytes) : Option Bytes :=
  match directives format with
  | none => none
  | some ds => if ∀ d ∈ ds, d.arguments = 0 then some (ds.flatMap Directive.text) else none

theorem vfprintf_eq_some {format out : Bytes} (h : vfprintf format = some out) :
    ∃ ds, directives format = some ds ∧ (∀ d ∈ ds, d.arguments = 0) ∧
      ds.flatMap Directive.text = out := by
  unfold vfprintf at h
  split at h
  · cases h
  · rename_i ds hds
    split at h
    · rename_i hnone
      exact ⟨ds, hds, hnone, Option.some.inj h⟩
    · cases h

/-- A directive without arguments is an ordinary character or `%%`. -/
theorem Directive.arguments_eq_zero {d : Directive} (h : d.arguments = 0) :
    (∃ c, d = .ordinary c) ∨ d = .percent := by
  cases d with
  | ordinary c => exact Or.inl ⟨c, rfl⟩
  | percent => exact Or.inr rfl
  | conversion c => exact absurd h (Nat.succ_ne_zero _)

/-- Directives without arguments print no more than they take. -/
theorem length_text_le {ds : List Directive} (h : ∀ d ∈ ds, d.arguments = 0) :
    (ds.flatMap Directive.text).length ≤ (ds.flatMap Directive.spelling).length := by
  induction ds with
  | nil => exact Nat.le_refl 0
  | cons d ds ih =>
    have hrest := ih fun d' hd' => h d' (List.mem_cons_of_mem d hd')
    rw [List.flatMap_cons, List.flatMap_cons, List.length_append, List.length_append]
    rcases Directive.arguments_eq_zero (h d List.mem_cons_self) with ⟨c, rfl⟩ | rfl
    · simp only [Directive.text, Directive.spelling, List.length_singleton]
      omega
    · simp only [Directive.text, Directive.spelling, List.length_cons]
      omega

/-- Directives that print their spelling are ordinary: a `%%` prints less. -/
theorem ordinary_of_text_eq_spelling {ds : List Directive} (h : ∀ d ∈ ds, d.arguments = 0)
    (heq : ds.flatMap Directive.text = ds.flatMap Directive.spelling) :
    ∀ d ∈ ds, ∃ c, d = .ordinary c := by
  induction ds with
  | nil => simp
  | cons d ds ih =>
    have hrest : ∀ d' ∈ ds, d'.arguments = 0 := fun d' hd' => h d' (List.mem_cons_of_mem d hd')
    rw [List.flatMap_cons, List.flatMap_cons] at heq
    rcases Directive.arguments_eq_zero (h d List.mem_cons_self) with ⟨c, rfl⟩ | rfl
    · rw [List.forall_mem_cons]
      exact ⟨⟨c, rfl⟩, ih hrest (List.append_cancel_left heq)⟩
    · have hlength := congrArg List.length heq
      have hle := length_text_le hrest
      rw [List.length_append, List.length_append] at hlength
      simp only [Directive.text, Directive.spelling, List.length_cons] at hlength
      omega

/-- **Formats that print themselves.**  They are those without a percent sign. -/
theorem vfprintf_eq_self_iff (format : Bytes) :
    vfprintf format = some format ↔ percentSign ∉ format := by
  constructor
  · intro h
    obtain ⟨ds, hds, hnone, htext⟩ := vfprintf_eq_some h
    obtain ⟨hspelling, hordinary⟩ := spelling_of_directives hds
    have hall := ordinary_of_text_eq_spelling hnone (htext.trans hspelling.symm)
    rw [← hspelling]
    intro hmem
    obtain ⟨d, hd, hmem⟩ := List.mem_flatMap.mp hmem
    obtain ⟨c, rfl⟩ := hall d hd
    exact hordinary c hd (List.mem_singleton.mp hmem).symm
  · intro h
    rw [vfprintf, directives_of_notMem h]
    have hnone : ∀ d ∈ format.map Directive.ordinary, d.arguments = 0 := by
      intro d hd
      obtain ⟨c, -, rfl⟩ := List.mem_map.mp hd
      rfl
    simp only [if_pos hnone, List.flatMap_map, Directive.text, List.flatMap_singleton']

/-! ## Formats without conversions -/

/-- Read from the left, every percent sign is followed by another one. -/
def Paired : Bytes → Prop
  | [] => True
  | [c] => c ≠ percentSign
  | c :: d :: rest =>
    if c = percentSign then d = percentSign ∧ Paired rest else Paired (d :: rest)

instance Paired.decidable : DecidablePred Paired
  | [] => .isTrue trivial
  | [c] => inferInstanceAs (Decidable (c ≠ percentSign))
  | c :: d :: rest =>
    have := decidable rest
    have := decidable (d :: rest)
    inferInstanceAs (Decidable (if c = percentSign then d = percentSign ∧ Paired rest
      else Paired (d :: rest)))

theorem paired_cons_of_ne {c : UInt8} (h : c ≠ percentSign) (rest : Bytes) :
    Paired (c :: rest) ↔ Paired rest := by
  cases rest with
  | nil => simp [Paired, h]
  | cons d rest => rw [Paired, if_neg h]

theorem paired_percent (d : UInt8) (rest : Bytes) :
    Paired (percentSign :: d :: rest) ↔ d = percentSign ∧ Paired rest := by
  rw [Paired, if_pos rfl]

/-- What has no percent sign does not matter in front. -/
theorem paired_append {front rest : Bytes} (h : percentSign ∉ front) :
    Paired (front ++ rest) ↔ Paired rest := by
  induction front with
  | nil => exact Iff.rfl
  | cons c front ih =>
    obtain ⟨hc, hfront⟩ := not_or.mp (List.mem_cons.not.mp h)
    rw [List.cons_append, paired_cons_of_ne (Ne.symm hc), ih hfront]

theorem paired_of_notMem {format : Bytes} (h : percentSign ∉ format) : Paired format := by
  rw [← List.append_nil format, paired_append h]
  trivial

/-- Only which characters are percent signs matters. -/
theorem paired_map {f : UInt8 → UInt8} (hf : ∀ c, f c = percentSign ↔ c = percentSign)
    (format : Bytes) : Paired (format.map f) ↔ Paired format := by
  induction format using Paired.induct with
  | case1 => exact Iff.rfl
  | case2 c => simp only [List.map_cons, List.map_nil, Paired, ne_eq, hf]
  | case3 d rest ih =>
    have hpercent := (hf percentSign).mpr rfl
    rw [List.map_cons, List.map_cons, hpercent, paired_percent, paired_percent, hf, ih]
  | case4 c d rest hc ih =>
    have hfc : f c ≠ percentSign := fun h => hc ((hf c).mp h)
    rw [List.map_cons, paired_cons_of_ne hfc, paired_cons_of_ne hc, ih]

/-- A format prints what its first directive does and then what the rest does. -/
theorem vfprintf_of_readDirective {format rest : Bytes} {d : Directive}
    (h : readDirective format = some (d, rest)) :
    vfprintf format = if d.arguments = 0 then (vfprintf rest).map (d.text ++ ·) else none := by
  rw [vfprintf, vfprintf, directives_of_readDirective h]
  cases directives rest with
  | none => simp
  | some ds =>
    by_cases hd : d.arguments = 0 <;> simp [hd]

/-- A format that does not begin with a directive is undefined. -/
theorem vfprintf_of_none {format : Bytes} (hformat : format ≠ [])
    (h : readDirective format = none) : vfprintf format = none := by
  have hnone : directives format = none := by
    rw [directives, if_neg hformat]
    split
    · rfl
    · rename_i hsome
      rw [hsome] at h
      cases h
  rw [vfprintf, hnone]

/-- A single percent sign begins a conversion, or nothing. -/
theorem vfprintf_percent_of_ne {rest : Bytes} (h : rest.head? ≠ some percentSign) :
    vfprintf (percentSign :: rest) = none := by
  have hread : readDirective (percentSign :: rest) =
      (readConversion rest).map fun r => (.conversion r.1, r.2) := by
    rw [readDirective, if_neg (not_not.mpr rfl), if_neg h]
  cases hconversion : readConversion rest with
  | none => exact vfprintf_of_none (List.cons_ne_nil _ _) (by rw [hread, hconversion]; rfl)
  | some r =>
    rw [hconversion, Option.map_some] at hread
    rw [vfprintf_of_readDirective hread]
    exact if_neg (Nat.succ_ne_zero _)

/-- **Formats that print without arguments.**  They are those in which the percent signs
come in pairs. -/
theorem isSome_vfprintf_iff (format : Bytes) : (vfprintf format).isSome = true ↔ Paired format := by
  have hordinary : ∀ {c : UInt8} (rest : Bytes), c ≠ percentSign →
      (vfprintf (c :: rest)).isSome = (vfprintf rest).isSome := by
    intro c rest hc
    have hread : readDirective (c :: rest) = some (.ordinary c, rest) := if_pos hc
    have hnone : (Directive.ordinary c).arguments = 0 := rfl
    rw [vfprintf_of_readDirective hread, if_pos hnone, Option.isSome_map]
  have hnil : (vfprintf []).isSome = true := by
    rw [vfprintf, directives_nil]
    rfl
  induction format using Paired.induct with
  | case1 => exact iff_of_true hnil trivial
  | case2 c =>
    by_cases hc : c = percentSign
    · subst hc
      rw [vfprintf_percent_of_ne (by simp)]
      simp [Paired]
    · rw [hordinary [] hc]
      exact iff_of_true hnil hc
  | case3 d rest ih =>
    rw [paired_percent]
    by_cases hd : d = percentSign
    · subst hd
      have hread : readDirective (percentSign :: percentSign :: rest) = some (.percent, rest) := rfl
      have hnone : Directive.percent.arguments = 0 := rfl
      rw [vfprintf_of_readDirective hread, if_pos hnone, Option.isSome_map]
      exact ih.trans (and_iff_right rfl).symm
    · rw [vfprintf_percent_of_ne (by simpa using hd)]
      simp [hd]
  | case4 c d rest hc ih =>
    rw [hordinary _ hc, paired_cons_of_ne hc]
    exact ih

end BafangEmulator.Foundation.Format
