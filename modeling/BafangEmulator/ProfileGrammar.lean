/-
  ProfileGrammar.lean --- which texts are profiles, and what they define.

  The constructor reads line by line and carries the section it is in.  Here the
  text is described without that state: a line is a header or gives a value to a key
  of the section of the closest header before it.  The constructor accepts the texts
  all of whose lines are one or the other, or blank, and the last value given to a
  key is the one that is stored (`construct_exact`).
-/
import BafangEmulator.Foundation.Prefix
import BafangEmulator.ProfileText

set_option autoImplicit false

namespace BafangEmulator.Profile

open Foundation

/-! ## The grammar -/

/-- The name in a header line: what is between the brackets. -/
def headerName? (line : Bytes) : Option Bytes :=
  if line.head? = some openBracket ∧ line.getLast? = some closeBracket then
    some (line.drop 1).dropLast
  else none

/-- What is before the first equal sign of a line, and what is after it. -/
def halves? (line : Bytes) : Option (Bytes × Bytes) :=
  match line.dropWhile (· != equalSign) with
  | [] => none
  | _ :: value => some (line.takeWhile (· != equalSign), value)

/-- The name in the closest header before a line. -/
def governing (before : List Bytes) : Option Bytes := lastSome? headerName? before

/-- A line the grammar allows after the lines before it. -/
def LineAllowed (before : List Bytes) (line : Bytes) : Prop :=
  line = [] ∨ (∃ name, headerName? line = some name) ∨
    ∃ key value sec, halves? line = some (key, value) ∧ key ≠ [] ∧ value ≠ [] ∧
      governing before = some sec ∧ sec ≠ []

/-- All lines are allowed. -/
def Grammatical (lines : List Bytes) : Prop := ∀ e ∈ withPrefixes lines, LineAllowed e.1 e.2

/-- The value a line gives to a key of a section. -/
def definition? (sec key : Bytes) (before : List Bytes) (line : Bytes) : Option Bytes :=
  match headerName? line, halves? line with
  | none, some (key', value) =>
    if key' = key ∧ governing before = some sec then some value else none
  | _, _ => none

/-- The last value that is given to a key of a section. -/
def lastDefinition (lines : List Bytes) (sec key : Bytes) : Option Bytes :=
  lastSome? (fun e => definition? sec key e.1 e.2) (withPrefixes lines)

theorem governing_append_singleton (before : List Bytes) (line : Bytes) :
    governing (before ++ [line]) = (headerName? line).or (governing before) :=
  lastSome?_append_singleton headerName? before line

theorem lastDefinition_append_singleton (before : List Bytes) (line sec key : Bytes) :
    lastDefinition (before ++ [line]) sec key =
      (definition? sec key before line).or (lastDefinition before sec key) := by
  rw [lastDefinition, withPrefixes_append_singleton, lastSome?_append_singleton]
  rfl

theorem definition?_of_header {line name : Bytes} (h : headerName? line = some name)
    (sec key : Bytes) (before : List Bytes) : definition? sec key before line = none := by
  simp only [definition?, h]

theorem definition?_of_halves {line key' value : Bytes} (hheader : headerName? line = none)
    (h : halves? line = some (key', value)) (sec key : Bytes) (before : List Bytes) :
    definition? sec key before line =
      if key' = key ∧ governing before = some sec then some value else none := by
  simp only [definition?, hheader, h]

/-! ## One line -/

theorem headerName?_eq (line : Bytes) : headerName? line =
    if isHeader line then some ((line.drop 1).take (line.length - 2)) else none := by
  simp only [headerName?, isHeader, Bool.and_eq_true, beq_iff_eq, List.dropLast_eq_take,
    List.length_drop]
  rfl

/-- The search for an equal sign finds where the line is halved. -/
theorem halves?_eq (line : Bytes) : halves? line =
    (line.findIdx? (· == equalSign)).map fun equal =>
      (line.take equal, line.drop (equal + 1)) := by
  cases hfind : line.findIdx? (· == equalSign) with
  | none =>
    have hall : ∀ c ∈ line, (c != equalSign) = true := by
      rw [List.findIdx?_eq_none_iff] at hfind
      intro c hc
      rw [bne, hfind c hc]
      rfl
    have hdrop : line.dropWhile (· != equalSign) = [] := List.dropWhile_eq_nil_iff.mpr hall
    rw [halves?, hdrop]
    rfl
  | some equal =>
    obtain ⟨hitem, hkey⟩ := eq_item_of_findIdx? hfind
    have hall : ∀ c ∈ line.take equal, (c != equalSign) = true := by
      intro c hc
      rw [bne_iff_ne]
      rintro rfl
      exact hkey hc
    have hdrop : line.dropWhile (· != equalSign) = equalSign :: line.drop (equal + 1) := by
      conv_lhs => rw [hitem]
      rw [List.dropWhile_append_of_pos hall]
      rfl
    have htake : line.takeWhile (· != equalSign) = line.take equal := by
      conv_lhs => rw [hitem]
      rw [List.takeWhile_append_of_pos hall]
      simp
    rw [halves?, hdrop, htake]
    rfl

/-- What `readLine` does with a line, by what the line is in the grammar. -/
theorem readLine_by_kind (sec line : Bytes) (data : ProfileData) :
    (line = [] ∧ readLine (sec, data) line = .ok (sec, data)) ∨
    (∃ name, headerName? line = some name ∧ readLine (sec, data) line = .ok (name, data)) ∨
    (∃ key value, headerName? line = none ∧ halves? line = some (key, value) ∧
      (sec ≠ [] ∧ key ≠ [] ∧ value ≠ []) ∧
      readLine (sec, data) line = .ok (sec, data.set sec key value)) ∨
    (line ≠ [] ∧ headerName? line = none ∧
      (∀ key value, halves? line = some (key, value) → ¬ (sec ≠ [] ∧ key ≠ [] ∧ value ≠ [])) ∧
      readLine (sec, data) line = .error (parseFailure line)) := by
  rw [headerName?_eq, halves?_eq]
  rcases readLine_cases sec line data with hblank | ⟨hheader, hread⟩ |
    ⟨equal, hheader, hequal, hvalid, hread⟩ | ⟨hline, hheader, hinvalid, hread⟩
  · exact Or.inl hblank
  · exact Or.inr (Or.inl ⟨_, if_pos hheader, hread⟩)
  · rw [hheader, hequal]
    exact Or.inr (Or.inr (Or.inl ⟨_, _, rfl, rfl, hvalid, hread⟩))
  · rw [hheader]
    refine Or.inr (Or.inr (Or.inr ⟨hline, rfl, fun key value h => ?_, hread⟩))
    obtain ⟨equal, hequal, heq⟩ := Option.map_eq_some_iff.mp h
    obtain ⟨rfl, rfl⟩ := Prod.mk.inj heq
    exact hinvalid equal hequal

/-! ## The loop -/

/-- What the state of the loop says about the lines read. -/
structure Reads (lines : List Bytes) (state : Bytes × ProfileData) : Prop where
  sec_eq : state.1 = (governing lines).getD []
  get?_eq : ∀ sec key, state.2.get? sec key = lastDefinition lines sec key

theorem reads_nil : Reads [] ([], ∅) where
  sec_eq := rfl
  get?_eq sec key := Table.get?_empty sec key

section Step

variable {before : List Bytes} {line sec : Bytes} {data : ProfileData}

/-- A section with a name is that of the closest header. -/
theorem Reads.governing_eq (h : Reads before (sec, data)) (hsec : sec ≠ []) :
    governing before = some sec := by
  have heq : sec = (governing before).getD [] := h.sec_eq
  cases hgov : governing before with
  | none =>
    rw [hgov] at heq
    exact absurd heq hsec
  | some name =>
    rw [hgov] at heq
    exact congrArg some heq.symm

/-- One line is accepted when the grammar allows it. -/
theorem Reads.readLine_eq_ok_iff (h : Reads before (sec, data)) :
    (∃ next, readLine (sec, data) line = .ok next) ↔ LineAllowed before line := by
  rcases readLine_by_kind sec line data with ⟨hblank, hread⟩ | ⟨name, hname, hread⟩ |
    ⟨key, value, -, hhalves, ⟨hsec, hkey, hvalue⟩, hread⟩ | ⟨hline, hheader, hinvalid, hread⟩
  · exact iff_of_true ⟨_, hread⟩ (Or.inl hblank)
  · exact iff_of_true ⟨_, hread⟩ (Or.inr (Or.inl ⟨name, hname⟩))
  · exact iff_of_true ⟨_, hread⟩
      (Or.inr (Or.inr ⟨key, value, sec, hhalves, hkey, hvalue, h.governing_eq hsec, hsec⟩))
  · refine iff_of_false (fun ⟨next, hnext⟩ => ?_) ?_
    · rw [hread] at hnext
      cases hnext
    · rintro (hblank | ⟨name, hname⟩ | ⟨key, value, sec', hhalves, hkey, hvalue, hgov, hsec⟩)
      · exact hline hblank
      · rw [hheader] at hname
        cases hname
      · have hopen : sec = sec' := by simpa [hgov] using h.sec_eq
        exact hinvalid key value hhalves ⟨hopen ▸ hsec, hkey, hvalue⟩

/-- One line adds what it defines. -/
theorem Reads.readLine {next : Bytes × ProfileData} (h : Reads before (sec, data))
    (hnext : Profile.readLine (sec, data) line = .ok next) : Reads (before ++ [line]) next := by
  rcases readLine_by_kind sec line data with ⟨rfl, hread⟩ | ⟨name, hname, hread⟩ |
    ⟨key, value, hheader, hhalves, ⟨hsec, -, -⟩, hread⟩ | ⟨-, -, -, hread⟩
  · -- a blank line
    obtain rfl := Except.ok.inj (hread.symm.trans hnext)
    refine ⟨?_, fun sec' key' => ?_⟩
    · rw [governing_append_singleton]
      exact h.sec_eq
    · rw [lastDefinition_append_singleton]
      exact h.get?_eq sec' key'
  · -- a header
    obtain rfl := Except.ok.inj (hread.symm.trans hnext)
    refine ⟨?_, fun sec' key' => ?_⟩
    · rw [governing_append_singleton, hname]
      rfl
    · rw [lastDefinition_append_singleton, definition?_of_header hname]
      exact h.get?_eq sec' key'
  · -- a definition
    obtain rfl := Except.ok.inj (hread.symm.trans hnext)
    refine ⟨?_, fun sec' key' => ?_⟩
    · rw [governing_append_singleton, hheader]
      exact h.sec_eq
    · rw [lastDefinition_append_singleton, definition?_of_halves hheader hhalves,
        h.governing_eq hsec, ← h.get?_eq]
      by_cases hsame : sec = sec' ∧ key = key'
      · obtain ⟨rfl, rfl⟩ := hsame
        rw [Table.get?_set_self, if_pos ⟨rfl, rfl⟩]
        rfl
      · rw [Table.get?_set_of_ne hsame,
          if_neg fun heq => hsame ⟨Option.some.inj heq.2, heq.1⟩]
        rfl
  · rw [hread] at hnext
    cases hnext

end Step

/-! ## Whole texts -/

/-- The texts that are read are the grammatical ones. -/
theorem parseText_eq_ok_iff (text : Bytes) :
    (∃ data, parseText text = .ok data) ↔ Grammatical (text.splitOn newline) := by
  have hloop := foldlM_eq_ok_iff reads_nil (fun before line state next => Reads.readLine)
    (fun before line state => Reads.readLine_eq_ok_iff) (text.splitOn newline)
  rw [Grammatical, ← hloop, parseText, readLines]
  cases (text.splitOn newline).foldlM Profile.readLine ([], ∅) with
  | error e => exact iff_of_false (by rintro ⟨_, ⟨⟩⟩) (by rintro ⟨_, ⟨⟩⟩)
  | ok state => exact iff_of_true ⟨state.2, rfl⟩ ⟨state, rfl⟩

/-- A text is read as its last definitions. -/
theorem get?_of_parseText {text : Bytes} {data : ProfileData} (h : parseText text = .ok data)
    (sec key : Bytes) : data.get? sec key = lastDefinition (text.splitOn newline) sec key := by
  have hloop := reads_of_foldlM reads_nil (fun before line state next => Reads.readLine)
    (text.splitOn newline)
  rw [parseText, readLines] at h
  cases hread : (text.splitOn newline).foldlM Profile.readLine ([], ∅) with
  | error e =>
    rw [hread] at h
    cases h
  | ok state =>
    rw [hread] at h
    obtain rfl := Except.ok.inj h
    exact (hloop state hread).get?_eq sec key

/-- A profile that was loaded from a text. -/
theorem eq_of_construct {path text : Bytes} {files : Files} {p : Profile}
    (hfile : files path = some text) (h : construct path files = .ok p) :
    ∃ data, parseText text = .ok data ∧ p = ⟨true, path, data⟩ := by
  rcases construct_cases h with ⟨hnone, -⟩ | ⟨text', data, hsome, hparse, rfl⟩
  · rw [hfile] at hnone
    cases hnone
  · rw [hfile, Option.some.injEq] at hsome
    subst hsome
    exact ⟨data, hparse, rfl⟩

/-- **What a text defines.**  Construction succeeds exactly on the grammatical texts,
and then every key has the last value it is given, and no key has another. -/
theorem construct_exact {path text : Bytes} {files : Files} (hfile : files path = some text) :
    ((∃ p, construct path files = .ok p) ↔ Grammatical (text.splitOn newline)) ∧
    ∀ p, construct path files = .ok p → ∀ sec key,
      p.data.get? sec key = lastDefinition (text.splitOn newline) sec key := by
  constructor
  · rw [← parseText_eq_ok_iff]
    constructor
    · rintro ⟨p, h⟩
      obtain ⟨data, hdata, -⟩ := eq_of_construct hfile h
      exact ⟨data, hdata⟩
    · rintro ⟨data, hdata⟩
      exact ⟨⟨true, path, data⟩, by simp only [construct, hfile, hdata]⟩
  · intro p h sec key
    obtain ⟨data, hdata, rfl⟩ := eq_of_construct hfile h
    exact get?_of_parseText hdata sec key

/-- A text with a section that is reopened, a blank line and no final newline. -/
theorem construct_exact_reopened :
    Grammatical ((bytes "[B]\nk=1\n\n[A]\nk=2\n[B]\nk=3=4").splitOn newline) ∧
      ∃ p, construct (bytes "in.el") (fun _ => some (bytes "[B]\nk=1\n\n[A]\nk=2\n[B]\nk=3=4")) =
        .ok p ∧ p.data.get? (bytes "B") (bytes "k") = some (bytes "3=4") := by
  have hload : construct (bytes "in.el")
      (fun _ => some (bytes "[B]\nk=1\n\n[A]\nk=2\n[B]\nk=3=4")) =
        .ok ⟨true, bytes "in.el", (∅ : ProfileData).setAll
          [(bytes "B", bytes "k", bytes "1"), (bytes "A", bytes "k", bytes "2"),
            (bytes "B", bytes "k", bytes "3=4")]⟩ := rfl
  obtain ⟨haccepts, hstored⟩ := @construct_exact (bytes "in.el") _
    (fun _ => some (bytes "[B]\nk=1\n\n[A]\nk=2\n[B]\nk=3=4")) rfl
  refine ⟨haccepts.mp ⟨_, hload⟩, _, hload, ?_⟩
  rw [hstored _ hload]
  decide

end BafangEmulator.Profile
