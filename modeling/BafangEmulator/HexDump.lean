/-
  HexDump.lean --- trace.cpp: the writes of `binary`, and what can be read back from a dump.

  Each row is put together by three loops of `sprintf` calls that share one offset into
  `char data[256]`.  `runBinary` runs them write by write, with the call of `message` at the
  end of each row; no write leaves the array, and the formats are those of `binary`
  (`runBinary_eq`).  The hex part of a short row is padded with blanks, so the text column
  starts at the same offset in every row, and reading the columns that are not blank gives
  the buffer back, as long as `message` returns for every row (`binary_lossless_iff`).
-/
import BafangEmulator.Foundation.CharArray
import BafangEmulator.Trace

set_option autoImplicit false

namespace BafangEmulator.Trace

open Foundation

/-! ## The inner loops -/

/-- The first inner loop, over the bytes of the row. -/
def hexLoop (chunk : Bytes) (array : CharArray 256) : Option (CharArray 256) :=
  chunk.foldlM (fun array c => array.sprintf (hexColumn c)) array

/-- The second inner loop, over the columns that a short row leaves out. -/
def padLoop (chunk : Bytes) (array : CharArray 256) : Option (CharArray 256) :=
  (List.replicate (16 - chunk.length) (bytes "   ")).foldlM CharArray.sprintf array

/-- The third inner loop, over the bytes again. -/
def textLoop (chunk : Bytes) (array : CharArray 256) : Option (CharArray 256) :=
  chunk.foldlM (fun array c => array.sprintf [textColumn c]) array

/-- The hex part of a row. -/
def fillHex (chunk : Bytes) : Option (CharArray 256) := do
  let array ← hexLoop chunk (CharArray.zeroed 256)
  padLoop chunk array

/-- A whole row. -/
def fillRow (chunk : Bytes) : Option (CharArray 256) := do
  let array ← fillHex chunk
  textLoop chunk array

/-- `trace::binary`, write by write: the formats it passes to `message`, in order, where
each call returns. -/
def runBinary (header buffer : Bytes) : Option (List Bytes) :=
  if buffer = [] then some []
  else do
    let array ← fillRow (buffer.take 16)
    let format := cString array.chars
    let _record ← message header format
    let formats ← runBinary header (buffer.drop 16)
    return format :: formats
termination_by buffer.length
decreasing_by
  rename_i hbuffer
  exact length_drop_lt hbuffer

theorem length_hexColumns (chunk : Bytes) :
    (chunk.flatMap hexColumn).length = 3 * chunk.length := by
  induction chunk with
  | nil => rfl
  | cons c chunk ih =>
    rw [List.flatMap_cons, List.length_append, ih, List.length_cons]
    show 3 + _ = _
    omega

/-- A short row is padded to the width of a full one. -/
theorem length_hexPart {chunk : Bytes} (h : chunk.length ≤ 16) :
    (hexPart chunk).length = 48 := by
  have hpad : ∀ n, (List.replicate n (bytes "   ")).flatten.length = 3 * n := by
    intro n
    rw [List.length_flatten, List.map_replicate, List.sum_replicate]
    exact Nat.mul_comm n 3
  rw [hexPart, List.length_append, length_hexColumns, hpad]
  omega

/-- A row ends well before its array does. -/
theorem length_row {chunk : Bytes} (h : chunk.length ≤ 16) :
    (row chunk).length = 48 + chunk.length := by
  rw [row_eq, List.length_append, length_hexPart h, List.length_map]

/-- The first two loops write the hex part. -/
theorem fillHex_holds {chunk : Bytes} (h : chunk.length ≤ 16) :
    ∃ array, fillHex chunk = some array ∧ array.Holds (hexPart chunk) := by
  have hwidth := length_hexPart h
  have hpad : hexPart chunk =
      chunk.flatMap hexColumn ++ (List.replicate (16 - chunk.length) (bytes "   ")).flatMap id := by
    rw [List.flatMap_id]
    rfl
  rw [hpad] at hwidth ⊢
  have hcolumns : ([] ++ chunk.flatMap hexColumn).length < 256 := by
    rw [List.length_append] at hwidth
    rw [List.nil_append]
    omega
  have hzeroed : (CharArray.zeroed 256).Holds [] := CharArray.holds_zeroed (by decide)
  obtain ⟨a₁, hhex, h₁⟩ := hzeroed.foldlM_sprintf hexColumn chunk hcolumns
  obtain ⟨a₂, hpadded, h₂⟩ := h₁.foldlM_sprintf id (List.replicate (16 - chunk.length) (bytes "   "))
    (by rw [List.nil_append, hwidth]; decide)
  refine ⟨a₂, ?_, h₂⟩
  rw [fillHex, hexLoop, hhex]
  exact hpadded

/-- The third loop writes the text column behind it. -/
theorem textLoop_holds {chunk : Bytes} {array : CharArray 256} (h : chunk.length ≤ 16)
    (ha : array.Holds (hexPart chunk)) :
    ∃ array', textLoop chunk array = some array' ∧ array'.Holds (row chunk) := by
  have hrow : row chunk = hexPart chunk ++ chunk.flatMap fun c => [textColumn c] := by
    rw [row_eq, List.map_eq_flatMap]
  rw [hrow]
  refine ha.foldlM_sprintf (fun c => [textColumn c]) chunk ?_
  rw [← hrow, length_row h]
  omega

/-- The first 48 characters of a row are its hex part, the others its text column. -/
theorem take_row {chunk : Bytes} (h : chunk.length ≤ 16) : (row chunk).take 48 = hexPart chunk := by
  rw [row_eq, List.take_append_of_le_length (length_hexPart h).ge,
    List.take_of_length_le (length_hexPart h).le]

theorem drop_row {chunk : Bytes} (h : chunk.length ≤ 16) :
    (row chunk).drop 48 = chunk.map textColumn := by
  rw [row_eq, ← length_hexPart h, List.drop_left]

/-- What the loops do for a row: its hex part is 48 characters wide, the text column
starts behind it, and the array has room for the terminating NUL. -/
structure Written (chunk : Bytes) (hex array : CharArray 256) (format : Bytes) : Prop where
  fillHex_eq : fillHex chunk = some hex
  textLoop_eq : textLoop chunk hex = some array
  width : hex.offset = 48
  hex_part : hex.chars.take 48 = format.take 48
  text_column : format.drop 48 = chunk.map textColumn
  room : array.offset + 1 < 256
  format_eq : cString array.chars = format

/-- Every row is written as it should be. -/
theorem written_row {chunk : Bytes} (h : chunk.length ≤ 16) :
    ∃ hex array, Written chunk hex array (row chunk) := by
  obtain ⟨hex, hhex, hholds⟩ := fillHex_holds h
  obtain ⟨array, htext, hfilled⟩ := textLoop_holds h hholds
  have hwidth : hex.offset = 48 := by rw [hholds.offset_eq, length_hexPart h]
  refine ⟨hex, array, {
    fillHex_eq := hhex
    textLoop_eq := htext
    width := hwidth
    hex_part := ?_
    text_column := drop_row h
    room := ?_
    format_eq := ?_ }⟩
  · rw [take_row h, hholds.chars_eq, ← length_hexPart h, List.take_left]
  · rw [hfilled.offset_eq, length_row h]
    omega
  · rw [hfilled.chars_eq]
    exact cString_data chunk

theorem Written.fillRow_eq {chunk format : Bytes} {hex array : CharArray 256}
    (h : Written chunk hex array format) : fillRow chunk = some array := by
  rw [fillRow, h.fillHex_eq]
  exact h.textLoop_eq

/-! ## The rows -/

/-- No write of `trace::binary` leaves its array; what it comes to is the dump. -/
theorem runBinary_eq (header buffer : Bytes) :
    runBinary header buffer = (dump header buffer).map fun _ => binary buffer := by
  induction buffer using binary.induct with
  | case1 => simp [runBinary, dump, binary]
  | case2 buffer hbuffer ih =>
    obtain ⟨hex, array, hwritten⟩ := written_row (List.length_take_le 16 buffer)
    rw [runBinary, if_neg hbuffer, hwritten.fillRow_eq, dump_cons hbuffer, binary, if_neg hbuffer,
      cString_data, ih]
    simp only [Option.bind_eq_bind, Option.bind_some, hwritten.format_eq]
    cases message header (row (buffer.take 16)) with
    | none => rfl
    | some record => cases dump header (buffer.drop 16) <;> rfl

/-- There is a row for every 16 bytes, and one for those left over. -/
theorem length_binary (buffer : Bytes) : (binary buffer).length = (buffer.length + 15) / 16 := by
  induction buffer using binary.induct with
  | case1 => simp [binary]
  | case2 buffer hbuffer ih =>
    have hlength := List.length_pos_of_ne_nil hbuffer
    rw [binary, if_neg hbuffer, List.length_cons, ih, List.length_drop]
    omega

/-- Row `i` shows its bytes. -/
theorem getElem?_binary (buffer : Bytes) (i : Nat) {format : Bytes}
    (h : (binary buffer)[i]? = some format) : format = row (rowBytes buffer i) := by
  induction buffer using binary.induct generalizing i with
  | case1 =>
    rw [binary, if_pos rfl] at h
    cases h
  | case2 buffer hbuffer ih =>
    rw [binary, if_neg hbuffer] at h
    cases i with
    | zero =>
      rw [List.getElem?_cons_zero, cString_data] at h
      exact (Option.some_inj.mp h).symm
    | succ i =>
      rw [List.getElem?_cons_succ] at h
      rw [ih i h, rowBytes, rowBytes, List.drop_drop]
      congr 3
      omega

/-! ## Reading a dump -/

/-- The value of a digit of `%X`. -/
def hexValue (c : UInt8) : Option UInt8 :=
  if 0x30 ≤ c ∧ c ≤ 0x39 then some (c - 0x30)
  else if 0x41 ≤ c ∧ c ≤ 0x46 then some (c - 0x37)
  else none

/-- The bytes of the columns that are not blank. -/
def decodeColumns : Bytes → Option Bytes
  | [] => some []
  | high :: low :: _ :: columns =>
    if high = 0x20 ∧ low = 0x20 then decodeColumns columns
    else do
      let h ← hexValue high
      let l ← hexValue low
      let decoded ← decodeColumns columns
      return (16 * h + l) :: decoded
  | _ => none

/-- The bytes of the hex parts of the rows, in order. -/
def decodeRows (rows : List Bytes) : Option Bytes := do
  let decoded ← rows.mapM fun format => decodeColumns (format.take 48)
  return decoded.flatten

theorem hexValue_hexDigit {n : UInt8} (h : n < 16) : hexValue (hexDigit n) = some n := by
  unfold hexDigit
  split
  · -- A decimal digit.
    have hdigit : 0x30 ≤ 0x30 + n ∧ 0x30 + n ≤ 0x39 := by grind
    rw [hexValue, if_pos hdigit, UInt8.add_comm, UInt8.add_sub_cancel]
  · -- A letter.
    have hdigit : ¬ (0x30 ≤ 0x37 + n ∧ 0x37 + n ≤ 0x39) := by grind
    have hletter : 0x41 ≤ 0x37 + n ∧ 0x37 + n ≤ 0x46 := by grind
    rw [hexValue, if_neg hdigit, if_pos hletter, UInt8.add_comm, UInt8.add_sub_cancel]

theorem hexDigit_ne_blank {n : UInt8} (h : n < 16) : hexDigit n ≠ 0x20 := by
  unfold hexDigit
  grind

theorem high_low (b : UInt8) : 16 * (b / 16) + b % 16 = b := by
  rw [← UInt8.toNat_inj, UInt8.toNat_add, UInt8.toNat_mul, UInt8.toNat_div, UInt8.toNat_mod]
  have hlt := UInt8.toNat_lt b
  show (16 * (b.toNat / 16) % 256 + b.toNat % 16) % 256 = b.toNat
  omega

/-- The columns of a byte decode to it. -/
theorem decodeColumns_hexColumn (c : UInt8) {columns decoded : Bytes}
    (h : decodeColumns columns = some decoded) :
    decodeColumns (hexColumn c ++ columns) = some (c :: decoded) := by
  show decodeColumns (hexDigit (c / 16) :: hexDigit (c % 16) :: 0x20 :: columns) = _
  rw [decodeColumns, if_neg fun hblank => hexDigit_ne_blank (high_lt c) hblank.1,
    hexValue_hexDigit (high_lt c), hexValue_hexDigit (low_lt c), h]
  show some ((16 * (c / 16) + c % 16) :: decoded) = _
  rw [high_low]

/-- Blank columns decode to nothing. -/
theorem decodeColumns_blanks (n : Nat) :
    decodeColumns (List.replicate n (bytes "   ")).flatten = some [] := by
  induction n with
  | zero => rfl
  | succ n ih =>
    rw [List.replicate_succ, List.flatten_cons]
    show decodeColumns (0x20 :: 0x20 :: 0x20 :: _) = _
    rw [decodeColumns, if_pos ⟨rfl, rfl⟩]
    exact ih

theorem decodeColumns_hexPart (chunk : Bytes) : decodeColumns (hexPart chunk) = some chunk := by
  have hcolumns : ∀ (chunk blanks : Bytes), decodeColumns blanks = some [] →
      decodeColumns (chunk.flatMap hexColumn ++ blanks) = some chunk := by
    intro chunk blanks hblanks
    induction chunk with
    | nil => exact hblanks
    | cons c chunk ih =>
      rw [List.flatMap_cons, List.append_assoc]
      exact decodeColumns_hexColumn c ih
  exact hcolumns chunk _ (decodeColumns_blanks _)

/-- The first row of a dump decodes to the first bytes. -/
theorem decodeRows_cons {format chunk decoded : Bytes} {rows : List Bytes}
    (hfirst : decodeColumns (format.take 48) = some chunk) (hrest : decodeRows rows = some decoded) :
    decodeRows (format :: rows) = some (chunk ++ decoded) := by
  rw [decodeRows] at hrest
  obtain ⟨blocks, hblocks, hflatten⟩ := Option.bind_eq_some_iff.mp hrest
  rw [decodeRows, List.mapM_cons, hfirst, hblocks]
  show some (chunk ++ blocks.flatten) = _
  rw [Option.some_inj.mp hflatten]

/-- The rows decode to the buffer, 16 bytes at a time. -/
theorem decodeRows_binary (buffer : Bytes) : decodeRows (binary buffer) = some buffer := by
  induction buffer using binary.induct with
  | case1 =>
    rw [binary, if_pos rfl]
    rfl
  | case2 buffer hbuffer ih =>
    have hchunk := List.length_take_le 16 buffer
    have hfirst : decodeColumns ((row (buffer.take 16)).take 48) = some (buffer.take 16) := by
      rw [take_row hchunk]
      exact decodeColumns_hexPart _
    rw [binary, if_neg hbuffer, cString_data, decodeRows_cons hfirst ih, List.take_append_drop]

/-! ## The dump -/

/-- What the rows of a dump should be: one for every 16 bytes, each written inside its array,
and the hex parts of the rows decode to the buffer. -/
structure Lossless (buffer : Bytes) (rows : List Bytes) : Prop where
  length_eq : rows.length = (buffer.length + 15) / 16
  written : ∀ i format, rows[i]? = some format →
    ∃ hex array, Written (rowBytes buffer i) hex array format
  decoded : decodeRows rows = some buffer

theorem lossless_binary (buffer : Bytes) : Lossless buffer (binary buffer) where
  length_eq := length_binary buffer
  written i format hformat := by
    rw [getElem?_binary buffer i hformat]
    exact written_row (List.length_take_le 16 _)
  decoded := decodeRows_binary buffer

/-- **The dump is lossless**, and its loop ends, exactly when in every row of the buffer the
percent signs come in pairs: `message` does not return from any other row. -/
theorem binary_lossless_iff (header buffer : Bytes) :
    (∃ rows, runBinary header buffer = some rows ∧ Lossless buffer rows) ↔ Dumpable buffer := by
  rw [← isSome_dump_iff header, runBinary_eq]
  cases dump header buffer with
  | none => simp
  | some records => simpa using lossless_binary buffer

/-- The loop over two received bytes does not come to its end. -/
theorem dump_dies_on_conversion : ¬ ∃ rows,
    runBinary (bytes "serial_handler.cpp|L:55||") (bytes "%n") = some rows ∧
      Lossless (bytes "%n") rows := by
  rintro ⟨rows, hrows, -⟩
  have hnone : ¬ Dumpable (bytes "%n") := by decide +kernel
  rw [← isSome_dump_iff (bytes "serial_handler.cpp|L:55||")] at hnone
  rw [runBinary_eq, Option.not_isSome_iff_eq_none.mp hnone] at hrows
  simp at hrows

end BafangEmulator.Trace
