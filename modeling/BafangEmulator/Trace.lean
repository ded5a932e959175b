/-
  Trace.lean --- trace.cpp: the hex dump of a buffer, and how it gets into the log.

  `binary` dumps a buffer in rows of 16 bytes and passes each row to `message` as the
  format.  A row repeats the printable bytes of the buffer, so a percent sign in the
  buffer becomes one in a format: a row is logged as it is exactly when its bytes are
  free of them (`binary_is_literal_iff`), and the dump as a whole is defined exactly when
  they come in pairs in every row (`isSome_dump_iff`).
-/
import BafangEmulator.Foundation.Format

set_option autoImplicit false

namespace BafangEmulator.Trace

open Foundation Format

/-! ## trace::binary -/

/-- `isprint` of the classic locale. -/
def isprint (c : UInt8) : Bool := 0x20 ≤ c && c ≤ 0x7E

/-- A digit of `%X`. -/
def hexDigit (n : UInt8) : UInt8 := if n < 10 then 0x30 + n else 0x37 + n

/-- `"%02X "`. -/
def hexColumn (c : UInt8) : Bytes := [hexDigit (c / 16), hexDigit (c % 16), 0x20]

/-- A byte in the text column. -/
def textColumn (c : UInt8) : UInt8 := if isprint c then c else 0x2E

/-- What the three inner loops write for the `count` bytes of a row. -/
def row (chunk : Bytes) : Bytes :=
  chunk.flatMap hexColumn ++ (List.replicate (16 - chunk.length) (bytes "   ")).flatten ++
    chunk.map textColumn

/-- `char data[256]` after the loops. -/
def data (chunk : Bytes) : Bytes := row chunk ++ List.replicate (256 - (row chunk).length) 0

/-- The string in an array of characters. -/
def cString (array : Bytes) : Bytes := array.takeWhile (· != 0)

theorem length_drop_lt {buffer : Bytes} (h : buffer ≠ []) :
    (buffer.drop 16).length < buffer.length := by
  have hlength := List.length_pos_of_ne_nil h
  rw [List.length_drop]
  omega

/-- `trace::binary`: the formats it passes to `message`, in order. -/
def binary (buffer : Bytes) : List Bytes :=
  if buffer = [] then []
  else cString (data (buffer.take 16)) :: binary (buffer.drop 16)
termination_by buffer.length
decreasing_by
  rename_i hbuffer
  exact length_drop_lt hbuffer

/-! ## trace::message -/

/-- The file that `main` has the trace written to. -/
def filename : Bytes := bytes "BafangEmulator.txt"

/-- What `trace::message` writes to each of its outputs: the source file, the line and
the date, then the message, then a line ending. -/
def message (header format : Bytes) : Option Bytes :=
  (vfprintf format).map fun text => header ++ text ++ bytes "\r\n"

/-- The records that a dump leaves in the log: `binary` with its calls of `message`.  The
date is taken once here. -/
def dump (header buffer : Bytes) : Option (List Bytes) := (binary buffer).mapM (message header)

/-- A format is logged as it is when it prints itself. -/
theorem message_literal_iff (format : Bytes) :
    (∀ header, message header format = some (header ++ format ++ bytes "\r\n")) ↔
      percentSign ∉ format := by
  rw [← vfprintf_eq_self_iff]
  constructor
  · intro h
    obtain ⟨text, htext, heq⟩ := Option.map_eq_some_iff.mp (h [])
    have hsame : text = format := List.append_cancel_right heq
    rw [htext, hsame]
  · intro h header
    rw [message, h]
    rfl

/-! ## The characters of a row -/

/-- A character of the hex columns: a blank or a hex digit. -/
def IsHex (c : UInt8) : Prop :=
  c = 0x20 ∨ (0x30 ≤ c ∧ c ≤ 0x39) ∨ (0x41 ≤ c ∧ c ≤ 0x46)

theorem isHex_hexDigit {n : UInt8} (h : n < 16) : IsHex (hexDigit n) := by
  unfold IsHex hexDigit
  grind

theorem high_lt (b : UInt8) : b / 16 < 16 := by
  rw [UInt8.lt_iff_toNat_lt, UInt8.toNat_div]
  exact Nat.div_lt_of_lt_mul (UInt8.toNat_lt b)

theorem low_lt (b : UInt8) : b % 16 < 16 := by
  rw [UInt8.lt_iff_toNat_lt, UInt8.toNat_mod]
  exact Nat.mod_lt _ (by decide)

theorem isHex_of_mem_hexColumn {c b : UInt8} (h : c ∈ hexColumn b) : IsHex c := by
  rcases List.mem_cons.mp h with rfl | h
  · exact isHex_hexDigit (high_lt b)
  · rcases List.mem_cons.mp h with rfl | h
    · exact isHex_hexDigit (low_lt b)
    · exact Or.inl (List.mem_singleton.mp h)

/-- A row has hex columns, blanks and a text column. -/
theorem mem_row {chunk : Bytes} {c : UInt8} (h : c ∈ row chunk) :
    IsHex c ∨ ∃ b ∈ chunk, c = textColumn b := by
  rw [row, List.mem_append, List.mem_append] at h
  rcases h with (hhex | hpad) | htext
  · obtain ⟨b, -, hc⟩ := List.mem_flatMap.mp hhex
    exact Or.inl (isHex_of_mem_hexColumn hc)
  · obtain ⟨blanks, hblanks, hc⟩ := List.mem_flatten.mp hpad
    have hthree : bytes "   " = List.replicate 3 0x20 := rfl
    rw [(List.mem_replicate.mp hblanks).2, hthree] at hc
    exact Or.inl (Or.inl (List.mem_replicate.mp hc).2)
  · obtain ⟨b, hb, rfl⟩ := List.mem_map.mp htext
    exact Or.inr ⟨b, hb, rfl⟩

theorem isprint_textColumn (b : UInt8) : isprint (textColumn b) = true := by
  unfold textColumn
  split
  · assumption
  · rfl

/-- All characters of a row are printable. -/
theorem isprint_of_mem_row {chunk : Bytes} {c : UInt8} (h : c ∈ row chunk) :
    isprint c = true := by
  rcases mem_row h with hhex | ⟨b, -, rfl⟩
  · unfold IsHex at hhex
    grind [isprint]
  · exact isprint_textColumn b

/-- The string in `data` is the row. -/
theorem cString_data (chunk : Bytes) : cString (data chunk) = row chunk := by
  have hrow : ∀ c ∈ row chunk, (c != 0) = true := by
    intro c hc
    rw [bne_iff_ne]
    rintro rfl
    exact absurd (isprint_of_mem_row hc) (by decide)
  rw [cString, data, List.takeWhile_append_of_pos hrow, List.takeWhile_replicate]
  simp

/-- The hex columns of a row, and the blanks of the columns it leaves out. -/
def hexPart (chunk : Bytes) : Bytes :=
  chunk.flatMap hexColumn ++ (List.replicate (16 - chunk.length) (bytes "   ")).flatten

theorem row_eq (chunk : Bytes) : row chunk = hexPart chunk ++ chunk.map textColumn := rfl

theorem percentSign_notMem_hexPart (chunk : Bytes) : percentSign ∉ hexPart chunk := by
  intro h
  rcases List.mem_append.mp h with hhex | hpad
  · obtain ⟨b, -, hc⟩ := List.mem_flatMap.mp hhex
    exact absurd (isHex_of_mem_hexColumn hc) (by unfold IsHex; decide)
  · obtain ⟨blanks, hblanks, hc⟩ := List.mem_flatten.mp hpad
    rw [(List.mem_replicate.mp hblanks).2] at hc
    exact absurd hc (by decide)

/-- The text column shows a byte or a period. -/
theorem textColumn_eq_percentSign_iff (c : UInt8) :
    textColumn c = percentSign ↔ c = percentSign := by
  unfold textColumn
  split
  · rfl
  · rename_i hprint
    refine iff_of_false (by decide) ?_
    rintro rfl
    exact hprint rfl

/-- The percent signs of a row are those of its bytes. -/
theorem percentSign_mem_row_iff (chunk : Bytes) :
    percentSign ∈ row chunk ↔ percentSign ∈ chunk := by
  rw [row_eq, List.mem_append, or_iff_right (percentSign_notMem_hexPart chunk), List.mem_map]
  constructor
  · rintro ⟨b, hb, htext⟩
    exact (textColumn_eq_percentSign_iff b).mp htext ▸ hb
  · exact fun h => ⟨percentSign, h, rfl⟩

/-! ## Literal logs -/

/-- The percent signs of the formats are those of the buffer. -/
theorem percentSign_notMem_binary_iff (buffer : Bytes) :
    (∀ format ∈ binary buffer, percentSign ∉ format) ↔ percentSign ∉ buffer := by
  induction buffer using binary.induct with
  | case1 => simp [binary]
  | case2 buffer hbuffer ih =>
    have hsplit : percentSign ∈ buffer ↔
        percentSign ∈ buffer.take 16 ∨ percentSign ∈ buffer.drop 16 := by
      rw [← List.mem_append, List.take_append_drop]
    rw [binary, if_neg hbuffer, List.forall_mem_cons, ih, cString_data, percentSign_mem_row_iff,
      hsplit, not_or]

/-- **The dump is literal.**  Every row is logged as it is exactly when no byte of the
buffer is a percent sign. -/
theorem binary_is_literal_iff (buffer : Bytes) :
    (∀ format ∈ binary buffer, ∀ header,
      message header format = some (header ++ format ++ bytes "\r\n")) ↔
    percentSign ∉ buffer := by
  rw [← percentSign_notMem_binary_iff]
  exact forall₂_congr fun format _ => message_literal_iff format

/-- Two received bytes: the row ends in a conversion that takes an argument. -/
theorem received_conversion_takes_argument :
    binary (bytes "%n") = [bytes "25 6E " ++ List.replicate 42 0x20 ++ bytes "%n"] ∧
      (directives (bytes "25 6E " ++ List.replicate 42 0x20 ++ bytes "%n")).map
        (fun ds => (ds.map Directive.arguments).sum) = some 1 ∧
      ∀ header, message header (bytes "25 6E " ++ List.replicate 42 0x20 ++ bytes "%n") = none := by
  refine ⟨by decide +kernel, by decide +kernel, fun header => ?_⟩
  have hnone : vfprintf (bytes "25 6E " ++ List.replicate 42 0x20 ++ bytes "%n") = none := by
    decide +kernel
  rw [message, hnone]
  rfl

/-! ## Defined dumps -/

/-- The bytes of row `i`. -/
def rowBytes (buffer : Bytes) (i : Nat) : Bytes := (buffer.drop (16 * i)).take 16

/-- In every row of the buffer the percent signs come in pairs. -/
def Dumpable (buffer : Bytes) : Prop := ∀ i, Paired (rowBytes buffer i)

/-- There is nothing in the rows behind the last one. -/
theorem rowBytes_eq_nil {buffer : Bytes} {i : Nat} (h : (buffer.length + 15) / 16 ≤ i) :
    rowBytes buffer i = [] := by
  rw [rowBytes, List.drop_eq_nil_of_le (by omega), List.take_nil]

instance : DecidablePred Dumpable := fun buffer =>
  decidable_of_iff (∀ i < (buffer.length + 15) / 16, Paired (rowBytes buffer i))
    ⟨fun h i => if hi : i < (buffer.length + 15) / 16 then h i hi
      else rowBytes_eq_nil (Nat.not_lt.mp hi) ▸ trivial, fun h i _ => h i⟩

/-- The rows behind the first one are those of the rest. -/
theorem rowBytes_succ (buffer : Bytes) (i : Nat) :
    rowBytes buffer (i + 1) = rowBytes (buffer.drop 16) i := by
  rw [rowBytes, rowBytes, List.drop_drop]
  congr 2
  omega

/-- The first row, and the rest. -/
theorem dumpable_iff (buffer : Bytes) :
    Dumpable buffer ↔ Paired (buffer.take 16) ∧ Dumpable (buffer.drop 16) := by
  constructor
  · exact fun h => ⟨h 0, fun i => rowBytes_succ buffer i ▸ h (i + 1)⟩
  · rintro ⟨hfirst, hrest⟩ i
    cases i with
    | zero => exact hfirst
    | succ i => exact rowBytes_succ buffer i ▸ hrest i

theorem dumpable_nil : Dumpable [] := fun i => by
  rw [rowBytes, List.drop_nil, List.take_nil]
  trivial

/-- A buffer without percent signs can be dumped. -/
theorem dumpable_of_notMem {buffer : Bytes} (h : percentSign ∉ buffer) : Dumpable buffer := fun _ =>
  paired_of_notMem fun hmem => h (List.mem_of_mem_drop (List.mem_of_mem_take hmem))

/-- The percent signs of a row are paired as those of its bytes are. -/
theorem paired_row_iff (chunk : Bytes) : Paired (row chunk) ↔ Paired chunk := by
  rw [row_eq, paired_append (percentSign_notMem_hexPart chunk),
    paired_map textColumn_eq_percentSign_iff]

theorem isSome_message_iff (header format : Bytes) :
    (message header format).isSome = true ↔ Paired format := by
  rw [message, Option.isSome_map, isSome_vfprintf_iff]

theorem dump_cons {header buffer : Bytes} (h : buffer ≠ []) : dump header buffer = do
    let record ← message header (row (buffer.take 16))
    let records ← dump header (buffer.drop 16)
    return record :: records := by
  rw [dump, binary, if_neg h, cString_data, List.mapM_cons]
  rfl

/-- **The dump is defined** exactly when the percent signs come in pairs in every row. -/
theorem isSome_dump_iff (header buffer : Bytes) :
    (dump header buffer).isSome = true ↔ Dumpable buffer := by
  induction buffer using binary.induct with
  | case1 => exact iff_of_true (by rw [dump, binary, if_pos rfl]; rfl) dumpable_nil
  | case2 buffer hbuffer ih =>
    rw [dumpable_iff, ← ih, ← paired_row_iff, ← isSome_message_iff header, dump_cons hbuffer]
    cases message header (row (buffer.take 16)) with
    | none => simp
    | some record => cases dump header (buffer.drop 16) <;> simp

end BafangEmulator.Trace
